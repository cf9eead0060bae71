import Mathlib.Data.List.Nodup
import PolyGate.Lib.Except
import PolyGate.Lib.JsonDumps
import PolyGate.Lib.Lines

/-!
# `Lib/JsonRead.lean` — what a JSON text is read as, without fuel

`Reads d s item r`: before the text `s` stands `item`, and then `r`. This is the grammar that
`value`, `elements` and `members` decide (`reads_value`, `Reads.value`), and what is said of all
texts is said by induction on it.

A text may be changed as long as the reader does not notice (`Keeps`): where it skips spaces and
after the end of the value.
-/

namespace Lib

/-- What can be read: a value, or what stands after a bracket or a brace. -/
inductive Item
  | value (v : Json)
  | elements (vs : List Json)
  | members (kvs : List (PyStr × Json))

inductive Reads (d : Dialect) : PyStr → Item → PyStr → Prop
  | word {s r : PyStr} {v : Json} (h : word d s = some (v, r)) : Reads d s (.value v) r
  | number {s r : PyStr} {v : Json} (h : number d s = .ok (v, r)) : Reads d s (.value v) r
  | str {s text r : PyStr} (h : scanString .char none [] s = .ok (text, r)) :
      Reads d (codePoint '"' :: s) (.value (.str text)) r
  | emptyArr {s r : PyStr} (h : skipSpace s = codePoint ']' :: r) :
      Reads d (codePoint '[' :: s) (.value (.arr [])) r
  | arr {s r : PyStr} {vs : List Json} (h : Reads d (skipSpace s) (.elements vs) r) :
      Reads d (codePoint '[' :: s) (.value (.arr vs)) r
  | emptyObj {s r : PyStr} (h : skipSpace s = codePoint '\x7d' :: r) :
      Reads d (codePoint '\x7b' :: s) (.value (.obj [])) r
  | obj {s r : PyStr} {kvs : List (PyStr × Json)} (h : Reads d (skipSpace s) (.members kvs) r) :
      Reads d (codePoint '\x7b' :: s) (.value (.obj (dictOf kvs))) r
  | last {s r r₁ : PyStr} {v : Json} (hv : Reads d s (.value v) r)
      (hend : skipSpace r = codePoint ']' :: r₁) : Reads d s (.elements [v]) r₁
  | next {s r r₁ r₂ : PyStr} {v : Json} {vs : List Json} (hv : Reads d s (.value v) r)
      (hcomma : skipSpace r = codePoint ',' :: r₁)
      (hrest : Reads d (skipSpace r₁) (.elements vs) r₂) : Reads d s (.elements (v :: vs)) r₂
  | lastMember {s key r r₁ r₂ r₃ : PyStr} {v : Json}
      (hkey : scanString .char none [] s = .ok (key, r))
      (hcolon : skipSpace r = codePoint ':' :: r₁) (hv : Reads d (skipSpace r₁) (.value v) r₂)
      (hend : skipSpace r₂ = codePoint '\x7d' :: r₃) :
      Reads d (codePoint '"' :: s) (.members [(key, v)]) r₃
  | nextMember {s key r r₁ r₂ r₃ r₄ : PyStr} {v : Json} {kvs : List (PyStr × Json)}
      (hkey : scanString .char none [] s = .ok (key, r))
      (hcolon : skipSpace r = codePoint ':' :: r₁) (hv : Reads d (skipSpace r₁) (.value v) r₂)
      (hcomma : skipSpace r₂ = codePoint ',' :: r₃)
      (hrest : Reads d (skipSpace r₃) (.members kvs) r₄) :
      Reads d (codePoint '"' :: s) (.members ((key, v) :: kvs)) r₄

section
variable {d : Dialect}

/-! ## The reader follows the grammar -/

theorem head_eq_some {p : CodePoint} {s : PyStr} (h : s.head? = some p) : s = p :: s.tail := by
  cases s with
  | nil => cases h
  | cons q s => rw [Option.some.inj h, List.tail_cons]

/-- By the fuel, the three readers together. -/
theorem reads_all (fuel : Nat) :
    (∀ {s r : PyStr} {v : Json}, value d fuel s = .ok (v, r) → Reads d s (.value v) r) ∧
    (∀ {s r : PyStr} {vs : List Json}, elements d fuel s = .ok (vs, r) →
      Reads d s (.elements vs) r) ∧
    ∀ {s r : PyStr} {kvs : List (PyStr × Json)}, members d fuel s = .ok (kvs, r) →
      Reads d s (.members kvs) r := by
  induction fuel with
  | zero =>
    refine ⟨?_, ?_, ?_⟩
    · intro s r v h
      cases h
    · intro s r vs h
      cases h
    · intro s r kvs h
      cases h
  | succ fuel ih =>
    obtain ⟨ihValue, ihElements, ihMembers⟩ := ih
    refine ⟨?_, ?_, ?_⟩
    -- each branch of the reader is one rule
    · intro s r v h
      unfold value at h
      split at h
      · rename_i w hword
        cases h
        exact .word hword
      · split at h
        · cases h
        · rename_i p s hword
          split at h
          · rename_i hp
            obtain ⟨⟨text, r'⟩, hscan, h⟩ := bind_eq_ok.mp h
            cases h
            exact hp ▸ .str hscan
          · split at h
            · rename_i hp
              split at h
              · rename_i hend
                cases h
                exact hp ▸ .emptyArr (head_eq_some hend)
              · obtain ⟨⟨vs, r'⟩, helems, h⟩ := bind_eq_ok.mp h
                cases h
                exact hp ▸ .arr (ihElements helems)
            · split at h
              · rename_i hp
                split at h
                · rename_i hend
                  cases h
                  exact hp ▸ .emptyObj (head_eq_some hend)
                · obtain ⟨⟨kvs, r'⟩, hmembers, h⟩ := bind_eq_ok.mp h
                  cases h
                  exact hp ▸ .obj (ihMembers hmembers)
              · exact .number h
    · intro s r vs h
      unfold elements at h
      obtain ⟨⟨v, r₁⟩, hvalue, h⟩ := bind_eq_ok.mp h
      dsimp only at h
      split at h
      · rename_i p r₂ hskip
        split at h
        · rename_i hp
          cases h
          exact .last (ihValue hvalue) (hp ▸ hskip)
        · split at h
          · rename_i hp
            obtain ⟨⟨vs', r₃⟩, hrest, h⟩ := bind_eq_ok.mp h
            cases h
            exact .next (ihValue hvalue) (hp ▸ hskip) (ihElements hrest)
          · cases h
      · cases h
    · intro s r kvs h
      unfold members at h
      split at h
      · cases h
      · rename_i hquote
        obtain ⟨⟨key, r₁⟩, hkey, h⟩ := bind_eq_ok.mp h
        dsimp only at h
        split at h
        · cases h
        · rename_i hcolon
          have hs := head_eq_some (not_not.mp hquote)
          have hcolon := head_eq_some (not_not.mp hcolon)
          obtain ⟨⟨v, r₂⟩, hvalue, h⟩ := bind_eq_ok.mp h
          dsimp only at h
          split at h
          · rename_i p r₃ hskip
            split at h
            · rename_i hp
              cases h
              rw [hs]
              exact .lastMember hkey hcolon (ihValue hvalue) (hp ▸ hskip)
            · split at h
              · rename_i hp
                obtain ⟨⟨kvs', r₄⟩, hrest, h⟩ := bind_eq_ok.mp h
                cases h
                rw [hs]
                exact .nextMember hkey hcolon (ihValue hvalue) (hp ▸ hskip) (ihMembers hrest)
              · cases h
          · cases h

/-- What `value` reads, it reads by the grammar. -/
theorem reads_value {fuel : Nat} {s r : PyStr} {v : Json} (h : value d fuel s = .ok (v, r)) :
    Reads d s (.value v) r := (reads_all fuel).1 h

/-! ## Words and numbers in a text -/

/-- A word that is read stands at the beginning of the text. -/
theorem word_eq_some {s r : PyStr} {v : Json} (h : word d s = some (v, r)) :
    ∃ w, (w, v) ∈ words d ∧ s = w ++ r := by
  obtain ⟨⟨w, v'⟩, hfind, hw⟩ := Option.map_eq_some_iff.mp h
  cases hw
  have hstart := List.find?_some hfind
  dsimp only at hstart
  obtain ⟨t, ht⟩ := List.isPrefixOf_iff_prefix.mp hstart
  refine ⟨w, List.mem_of_find?_eq_some hfind, ?_⟩
  dsimp only
  rw [← ht, List.drop_left]

theorem word_nil : word d [] = none := by
  unfold word words
  cases d.constants <;> rfl

/-- Going over to characters and back leaves the text of a number as it is. -/
theorem codePoint_chars {s : PyStr} (h : ∀ p ∈ s, isNumberChar p = true) :
    (chars s).map codePoint = s := by
  rw [chars, List.map_map]
  refine (List.map_congr_left fun p hp => ?_).trans (List.map_id' s)
  have hsmall : p.val < 0x80 := by
    have hchar := h p hp
    simp only [isNumberChar, List.contains_cons, List.contains_nil] at hchar
    grind
  have hvalid : p.val.isValidChar := Or.inl (by omega)
  apply Fin.ext
  show (Char.ofNat p.val).toNat = p.val
  rw [Char.ofNat, dif_pos hvalid]
  rfl

/-- A number in a text, and what ends it. -/
theorem number_eq_ok {s r : PyStr} {v : Json} (h : number d s = .ok (v, r)) :
    ∃ text kind, numberKind text = some kind ∧ s = text.map codePoint ++ r ∧ EndsNumber r := by
  have hall : ∀ p ∈ s.takeWhile isNumberChar, isNumberChar p = true :=
    fun p hp => List.mem_takeWhile_imp hp
  have hr : r = s.dropWhile isNumberChar ∧
      ∃ kind, numberKind (chars (s.takeWhile isNumberChar)) = some kind := by
    unfold number at h
    dsimp only at h
    split at h
    · cases h
    · rename_i hkind
      split at h
      · cases h
        exact ⟨rfl, _, hkind⟩
      · cases h
    · rename_i hkind
      cases h
      exact ⟨rfl, _, hkind⟩
  obtain ⟨hr, kind, hkind⟩ := hr
  refine ⟨_, kind, hkind, ?_, ?_⟩
  · rw [codePoint_chars hall, hr, List.takeWhile_append_dropWhile]
  · intro p hp
    rw [hr] at hp
    exact Bool.eq_false_iff.mpr fun hnumber => by
      have := List.head?_dropWhile_not isNumberChar s
      rw [hp] at this
      simp [hnumber] at this

/-- The characters with which a value or a member begins. -/
def Starts (p : CodePoint) : Prop := isNumberChar p = true ∨ p ∈ initials ++ str "\"[\x7b"

instance (p : CodePoint) : Decidable (Starts p) := inferInstanceAs (Decidable (_ ∨ _))

/-- What is read begins with a quote, a bracket, a brace, a letter, a digit or a minus. -/
theorem Reads.starts {s r : PyStr} {item : Item} (h : Reads d s item r) :
    ∃ p t, s = p :: t ∧ Starts p := by
  induction h with
  | @word s _ _ h =>
    cases s with
    | nil =>
      rw [word_nil] at h
      cases h
    | cons p t =>
      refine ⟨p, t, rfl, Or.inr (List.mem_append.mpr (Or.inl ?_))⟩
      by_contra hp
      rw [word_none hp] at h
      cases h
  | number h =>
    obtain ⟨text, kind, hkind, rfl, -⟩ := number_eq_ok h
    obtain ⟨s', hs', hkind'⟩ := Option.bind_eq_some_iff.mp hkind
    cases text with
    | nil =>
      cases hs'
      cases hkind'
    | cons c text =>
      exact ⟨_, _, rfl, Or.inl (scanNumber_chars hs' _ List.mem_cons_self)⟩
  | str | emptyArr | arr | emptyObj | obj | lastMember | nextMember =>
    exact ⟨_, _, rfl, Or.inr (by decide)⟩
  | last _ _ ih | next _ _ _ ih => exact ih

/-- All of these are printable. -/
theorem Starts.bounds {p : CodePoint} (h : Starts p) : 0x20 < p.val ∧ p.val < 0x7f := by
  rcases h with hnumber | hmem
  · simp only [isNumberChar, List.contains_cons, List.contains_nil] at hnumber
    grind
  · have hall : (initials ++ str "\"[\x7b").all
        (fun p => decide (0x20 < p.val ∧ p.val < 0x7f)) = true := by decide
    exact of_decide_eq_true (List.all_eq_true.mp hall p hmem)

theorem isJsonSpace_le {p : CodePoint} (h : isJsonSpace p = true) : p.val ≤ 0x20 := by
  have hsmall : ∀ n ∈ [0x20, 0x09, 0x0a, 0x0d], n ≤ 0x20 := by decide
  exact hsmall p.val (List.contains_iff_mem.mp h)

theorem Starts.not_space {p : CodePoint} (h : Starts p) : isJsonSpace p = false :=
  Bool.eq_false_iff.mpr fun hspace => absurd (isJsonSpace_le hspace) (Nat.not_le.mpr h.bounds.1)

theorem skipSpace_cons {p : CodePoint} (hp : isJsonSpace p = false) (s : PyStr) :
    skipSpace (p :: s) = p :: s := List.dropWhile_cons_of_neg (by rw [hp]; decide)

/-- So there is no space to skip before it. -/
theorem Reads.skipSpace_eq {s r : PyStr} {item : Item} (h : Reads d s item r) :
    skipSpace s = s := by
  obtain ⟨p, t, rfl, hp⟩ := h.starts
  exact skipSpace_cons hp.not_space t

theorem Reads.head_ne {s r : PyStr} {item : Item} (h : Reads d s item r) {p : CodePoint}
    (hp : ¬ Starts p) : s.head? ≠ some p := by
  obtain ⟨q, t, rfl, hq⟩ := h.starts
  intro heq
  cases heq
  exact hp hq

/-! ## The grammar is decided -/

theorem length_skipSpace_le (s : PyStr) : (skipSpace s).length ≤ s.length :=
  List.length_dropWhile_le _ _

theorem length_of_skipSpace {s t : PyStr} {p : CodePoint} (h : skipSpace s = p :: t) :
    t.length < s.length := by
  have hle := length_skipSpace_le s
  rw [h, List.length_cons] at hle
  omega

/-- A literal that is read has its end in the text. -/
theorem quote_mem {scan : Scan} {high : Option CodePoint} {read s text r : PyStr}
    (h : scanString scan high read s = .ok (text, r)) :
    ∃ u, s = u ++ codePoint '"' :: r := by
  induction s generalizing scan high read with
  | nil => cases scan <;> cases h
  | cons p s ih =>
    have hrest {scan : Scan} {high : Option CodePoint} {read : PyStr}
        (h : scanString scan high read s = .ok (text, r)) :
        ∃ u, p :: s = u ++ codePoint '"' :: r := by
      obtain ⟨u, hu⟩ := ih h
      exact ⟨p :: u, by rw [hu, List.cons_append]⟩
    cases scan with
    | char =>
      unfold scanString at h
      split at h
      · rename_i hp
        cases h
        exact ⟨[], by rw [hp, List.nil_append]⟩
      · split at h
        · exact hrest h
        · split at h
          · cases h
          · exact hrest h
    | escaped =>
      unfold scanString at h
      split at h
      · exact hrest h
      · split at h
        · exact hrest h
        · cases h
    | hex digits =>
      unfold scanString at h
      split at h
      · cases h
      · split at h <;> exact hrest h

/-- A string takes at least its closing quote. -/
theorem length_scanString {scan : Scan} {high : Option CodePoint} {read s text r : PyStr}
    (h : scanString scan high read s = .ok (text, r)) : r.length < s.length := by
  obtain ⟨u, hu⟩ := quote_mem h
  rw [hu, List.length_append, List.length_cons]
  omega

/-- Whatever is read takes something of the text. -/
theorem Reads.length_lt {s r : PyStr} {item : Item} (h : Reads d s item r) :
    r.length < s.length := by
  induction h with
  | word h =>
    obtain ⟨w, hw, rfl⟩ := word_eq_some h
    have hlong : ∀ w ∈ words d, 0 < w.1.length := by
      unfold words
      cases d.constants <;> decide
    have hpos : 0 < w.length := hlong _ hw
    rw [List.length_append]
    omega
  | number h =>
    obtain ⟨text, kind, hkind, rfl, -⟩ := number_eq_ok h
    obtain ⟨p, t, heq, -⟩ := begins_number hkind
    rw [heq, List.cons_append, List.length_cons, List.length_append]
    omega
  | str h => exact lt_trans (length_scanString h) (Nat.lt_succ_self _)
  | emptyArr h | emptyObj h => exact lt_trans (length_of_skipSpace h) (Nat.lt_succ_self _)
  | @arr s _ _ _ ih | @obj s _ _ _ ih =>
    have hle := length_skipSpace_le s
    rw [List.length_cons]
    omega
  | last _ hend ih => exact lt_trans (length_of_skipSpace hend) ih
  | @next _ r r' _ _ _ _ hcomma _ ih ih' =>
    have hle := length_skipSpace_le r'
    have hcomma := length_of_skipSpace hcomma
    omega
  | @lastMember _ _ r r₁ r₂ r₃ _ hkey hcolon _ hend ih =>
    have hle := length_skipSpace_le r₁
    have hkey := length_scanString hkey
    have hcolon := length_of_skipSpace hcolon
    have hend := length_of_skipSpace hend
    rw [List.length_cons]
    omega
  | @nextMember _ _ r r₁ r₂ r₃ _ _ _ hkey hcolon _ hcomma _ ih ih' =>
    have hle := length_skipSpace_le r₁
    have hle' := length_skipSpace_le r₃
    have hkey := length_scanString hkey
    have hcolon := length_of_skipSpace hcolon
    have hcomma := length_of_skipSpace hcomma
    rw [List.length_cons]
    omega

/-- What is read as a number is no word, in any dialect. -/
theorem word_of_number {s r : PyStr} {v : Json} (h : number d s = .ok (v, r)) (d' : Dialect) :
    word d' s = none := by
  obtain ⟨text, kind, hkind, rfl, -⟩ := number_eq_ok h
  exact word_number hkind r

/-- The readers read `item`, with fuel for what they read. -/
def ReadBy (d : Dialect) (s r : PyStr) : Item → Prop
  | .value v => ∀ fuel, 2 * s.length ≤ fuel + 2 * r.length + 1 → value d fuel s = .ok (v, r)
  | .elements vs => ∀ fuel, 2 * s.length ≤ fuel + 2 * r.length → elements d fuel s = .ok (vs, r)
  | .members kvs => ∀ fuel, 2 * s.length ≤ fuel + 2 * r.length → members d fuel s = .ok (kvs, r)

/-- A value that needs no fuel but its own. -/
theorem readBy_value {s r : PyStr} {v : Json} (hlt : r.length < s.length)
    (h : ∀ fuel, value d (fuel + 1) s = .ok (v, r)) : ReadBy d s r (.value v) := by
  intro fuel hfuel
  cases fuel with
  | zero => omega
  | succ fuel => exact h fuel

/-- What the rules read, the reader reads, given fuel enough. -/
theorem Reads.readBy {s r : PyStr} {item : Item} (h : Reads d s item r) : ReadBy d s r item := by
  induction h with
  | word h => exact readBy_value (Reads.word h).length_lt fun fuel => value_word h fuel
  | @number s _ _ h =>
    refine readBy_value (Reads.number h).length_lt fun fuel => ?_
    obtain ⟨p, t, rfl, -⟩ := (Reads.number h).starts
    -- a number opens no string, array or object
    have hchar : p ≠ codePoint '"' ∧ p ≠ codePoint '[' ∧ p ≠ codePoint '\x7b' := by
      obtain ⟨text, kind, hkind, heq, -⟩ := number_eq_ok h
      obtain ⟨s', hs', hkind'⟩ := Option.bind_eq_some_iff.mp hkind
      have hnumber : isNumberChar p = true := by
        cases text with
        | nil =>
          cases hs'
          cases hkind'
        | cons c text =>
          rw [List.map_cons, List.cons_append] at heq
          rw [(List.cons.inj heq).1]
          exact scanNumber_chars hs' _ List.mem_cons_self
      refine ⟨?_, ?_, ?_⟩
      all_goals
        rintro rfl
        cases hnumber
    rw [Lib.value, word_of_number h]
    dsimp only
    rw [if_neg hchar.1, if_neg hchar.2.1, if_neg hchar.2.2, h]
  | str h =>
    refine readBy_value (Reads.str (d := d) h).length_lt fun fuel => ?_
    rw [Lib.value, word_none (by decide)]
    dsimp only
    rw [if_pos rfl, h]
    rfl
  | emptyArr h =>
    refine readBy_value (Reads.emptyArr (d := d) h).length_lt fun fuel => ?_
    rw [Lib.value, word_none (by decide)]
    dsimp only
    rw [if_neg (by decide), if_pos rfl, h, List.head?_cons, if_pos rfl, List.tail_cons]
  | @arr s r _ h ih =>
    intro fuel hfuel
    have hlt := h.length_lt
    have hle := length_skipSpace_le s
    rw [List.length_cons] at hfuel
    cases fuel with
    | zero => omega
    | succ fuel =>
      -- the elements begin after some spaces, so they are shorter than the array
      rw [Lib.value, word_none (by decide)]
      dsimp only
      rw [if_neg (by decide), if_pos rfl, if_neg (h.head_ne (by decide)), ih fuel (by omega)]
      rfl
  | emptyObj h =>
    refine readBy_value (Reads.emptyObj (d := d) h).length_lt fun fuel => ?_
    rw [Lib.value, word_none (by decide)]
    dsimp only
    rw [if_neg (by decide), if_neg (by decide), if_pos rfl, h, List.head?_cons, if_pos rfl,
      List.tail_cons]
  | @obj s r _ h ih =>
    intro fuel hfuel
    have hlt := h.length_lt
    have hle := length_skipSpace_le s
    rw [List.length_cons] at hfuel
    cases fuel with
    | zero => omega
    | succ fuel =>
      rw [Lib.value, word_none (by decide)]
      dsimp only
      rw [if_neg (by decide), if_neg (by decide), if_pos rfl, if_neg (h.head_ne (by decide)),
        ih fuel (by omega)]
      rfl
  | last hv hend ih =>
    intro fuel hfuel
    have hlt := hv.length_lt
    have hend' := length_of_skipSpace hend
    cases fuel with
    | zero => omega
    | succ fuel =>
      rw [Lib.elements, ih fuel (by omega)]
      simp only [bind, Except.bind, hend]
      exact if_pos trivial
  | @next _ r r₁ r₂ _ _ hv hcomma hrest ih ih' =>
    intro fuel hfuel
    have hlt := hv.length_lt
    have hlt' := hrest.length_lt
    have hle := length_skipSpace_le r₁
    have hcomma' := length_of_skipSpace hcomma
    cases fuel with
    | zero => omega
    | succ fuel =>
      -- the value and the rest are both shorter, and one step of fuel does for both
      rw [Lib.elements, ih fuel (by omega)]
      simp only [bind, Except.bind, hcomma]
      rw [if_neg (by decide), if_pos trivial, ih' fuel (by omega)]
      rfl
  | @lastMember s key r r₁ r₂ r₃ _ hkey hcolon hv hend ih =>
    intro fuel hfuel
    have hlt := hv.length_lt
    have hle := length_skipSpace_le r₁
    have hkey' := length_scanString hkey
    have hcolon' := length_of_skipSpace hcolon
    have hend' := length_of_skipSpace hend
    rw [List.length_cons] at hfuel
    cases fuel with
    | zero => omega
    | succ fuel =>
      rw [Lib.members, List.head?_cons, if_neg (by decide), List.tail_cons, hkey]
      simp only [bind, Except.bind, hcolon, List.head?_cons, List.tail_cons]
      rw [if_neg (by decide), ih fuel (by omega)]
      simp only [hend]
      exact if_pos trivial
  | @nextMember s key r r₁ r₂ r₃ _ _ _ hkey hcolon hv hcomma hrest ih ih' =>
    intro fuel hfuel
    have hlt := hv.length_lt
    have hlt' := hrest.length_lt
    have hle := length_skipSpace_le r₁
    have hle' := length_skipSpace_le r₃
    have hkey' := length_scanString hkey
    have hcolon' := length_of_skipSpace hcolon
    have hcomma' := length_of_skipSpace hcomma
    rw [List.length_cons] at hfuel
    cases fuel with
    | zero => omega
    | succ fuel =>
      rw [Lib.members, List.head?_cons, if_neg (by decide), List.tail_cons, hkey]
      simp only [bind, Except.bind, hcolon, List.head?_cons, List.tail_cons]
      rw [if_neg (by decide), ih fuel (by omega)]
      simp only [hcomma]
      rw [if_neg (by decide), if_pos trivial, ih' fuel (by omega)]
      rfl

/-- **What `parse` reads, in words.** -/
theorem parse_eq_ok {s : PyStr} {v : Json} :
    parse d s = .ok v ↔ ∃ r, Reads d (skipSpace s) (.value v) r ∧ skipSpace r = [] := by
  unfold parse
  constructor
  · intro h
    obtain ⟨⟨v', r⟩, hvalue, h⟩ := bind_eq_ok.mp h
    dsimp only at h
    split at h
    · rename_i hend
      cases h
      exact ⟨r, reads_value hvalue, hend⟩
    · cases h
  · rintro ⟨r, hreads, hend⟩
    have hle := length_skipSpace_le s
    have hlt := hreads.length_lt
    have hvalue : value d (2 * s.length + 1) (skipSpace s) = .ok (v, r) :=
      hreads.readBy _ (by omega)
    rw [hvalue]
    exact if_pos hend

end

/-! ## Changes that the reader does not notice -/

/-- What `d` reads, `d'` reads. -/
structure Dialect.Within (d d' : Dialect) : Prop where
  constants : d.constants = true → d'.constants = true
  maxDigits : ∀ n, d.maxDigits.all (n ≤ ·) = true → d'.maxDigits.all (n ≤ ·) = true

theorem Dialect.Within.refl (d : Dialect) : d.Within d := ⟨id, fun _ h => h⟩

/-- Texts of which one is read as the other: as long as something is to come the same characters
but for line feeds, the same after the spaces, and an end of a number where the other has one. -/
structure Keeps (R : PyStr → PyStr → Prop) : Prop where
  cons {p : CodePoint} {s t : PyStr} : R (p :: s) t → p ≠ lf → skipSpace (p :: s) ≠ [] →
    ∃ t', t = p :: t' ∧ R s t'
  skipSpace {s t : PyStr} : R s t → skipSpace s ≠ [] → R (skipSpace s) (skipSpace t)
  endsNumber {s t : PyStr} : R s t → EndsNumber s → EndsNumber t

/-- The wider dialect has the words of the narrower one. -/
theorem Dialect.Within.words {d d' : Dialect} (hd : d.Within d') {w : PyStr × Json}
    (hw : w ∈ words d) : w ∈ words d' := by
  unfold Lib.words at hw ⊢
  rcases List.mem_append.mp hw with hbase | hconstant
  · exact List.mem_append_left _ hbase
  · split at hconstant
    · rename_i hconstants
      rw [if_pos (hd.constants hconstants)]
      exact List.mem_append_right _ hconstant
    · cases hconstant

/-- No word begins another. -/
theorem word_of_mem {d : Dialect} {w : PyStr} {v : Json} (hw : (w, v) ∈ words d) (t : PyStr) :
    word d (w ++ t) = some (v, t) := by
  have hfound : ((words d).find? fun w' => w'.1.isPrefixOf (w ++ t)).isSome = true := by
    rw [List.find?_isSome]
    exact ⟨_, hw, List.isPrefixOf_iff_prefix.mpr (List.prefix_append w t)⟩
  obtain ⟨⟨w', v'⟩, hfind⟩ := Option.isSome_iff_exists.mp hfound
  have hapart : ∀ x ∈ words d, ∀ y ∈ words d, x.1 <+: y.1 → x.1 = y.1 := by
    unfold words
    cases d.constants <;> decide
  have hkeys : ((words d).map (·.1)).Nodup := by
    unfold words
    cases d.constants <;> decide
  have hw' := List.mem_of_find?_eq_some hfind
  have hstart := List.find?_some hfind
  dsimp only at hstart
  have heq : w' = w := by
    rcases Nat.le_total w'.length w.length with hle | hle
    · exact hapart _ hw' _ hw (List.prefix_of_prefix_length_le
        (List.isPrefixOf_iff_prefix.mp hstart) (List.prefix_append w t) hle)
    · exact (hapart _ hw _ hw' (List.prefix_of_prefix_length_le
        (List.prefix_append w t) (List.isPrefixOf_iff_prefix.mp hstart) hle)).symm
  subst heq
  have hv : (w', v') = (w', v) := List.inj_on_of_nodup_map hkeys hw' hw rfl
  cases hv
  unfold word
  rw [hfind, Option.map_some, List.drop_left]

theorem skipSpace_ne_nil {s : PyStr} {p : CodePoint} (hp : p ∈ s) (hspace : isJsonSpace p = false) :
    skipSpace s ≠ [] := fun hnil => by
  have hall := List.dropWhile_eq_nil_iff.mp hnil p hp
  rw [hspace] at hall
  cases hall

namespace Keeps

variable {R : PyStr → PyStr → Prop} (hR : Keeps R)
include hR

theorem cons_of_not_space {p : CodePoint} {s t : PyStr} (h : R (p :: s) t)
    (hp : isJsonSpace p = false) : ∃ t', t = p :: t' ∧ R s t' := by
  refine hR.cons h ?_ ?_
  · rintro rfl
    cases hp
  · rw [skipSpace_cons hp]
    exact List.cons_ne_nil _ _

/-- The same mark after the spaces. -/
theorem mark {p : CodePoint} {s s' t : PyStr} (h : R s t) (hs : Lib.skipSpace s = p :: s') :
    ∃ t', Lib.skipSpace t = p :: t' ∧ R s' t' := by
  have hskip := hR.skipSpace h (by rw [hs]; exact List.cons_ne_nil _ _)
  rw [hs] at hskip
  have hspace : isJsonSpace p = false := by
    have hhead := List.head?_dropWhile_not isJsonSpace s
    unfold Lib.skipSpace at hs
    rw [hs] at hhead
    exact Bool.eq_false_iff.mpr (by simpa using hhead)
  exact hR.cons_of_not_space hskip hspace

theorem append {w s t : PyStr} (hw : ∀ p ∈ w, isJsonSpace p = false) (h : R (w ++ s) t) :
    ∃ t', t = w ++ t' ∧ R s t' := by
  induction w generalizing t with
  | nil => exact ⟨t, rfl, h⟩
  | cons p w ih =>
    obtain ⟨hp, hw⟩ := List.forall_mem_cons.mp hw
    obtain ⟨t', rfl, h'⟩ := hR.cons_of_not_space h hp
    obtain ⟨t'', rfl, h''⟩ := ih hw h'
    exact ⟨t'', rfl, h''⟩

theorem scanString {scan : Scan} {high : Option CodePoint} {read s t text r : PyStr} (h : R s t)
    (hs : Lib.scanString scan high read s = .ok (text, r)) :
    ∃ r', Lib.scanString scan high read t = .ok (text, r') ∧ R r r' := by
  induction s generalizing scan high read t with
  | nil => cases scan <;> cases hs
  | cons p s ih =>
    -- a line feed ends the literal with an error
    have hlf : p ≠ lf := by
      rintro rfl
      cases scan <;> cases hs
    have hmore : Lib.skipSpace (p :: s) ≠ [] := by
      obtain ⟨u, hu⟩ := quote_mem hs
      rw [hu]
      exact skipSpace_ne_nil (List.mem_append_right u List.mem_cons_self) (by decide)
    obtain ⟨t, rfl, ht⟩ := hR.cons h hlf hmore
    cases scan with
    | char =>
      unfold Lib.scanString at hs ⊢
      split at hs
      · rename_i hp
        cases hs
        exact ⟨t, if_pos hp, ht⟩
      · rename_i hp
        rw [if_neg hp]
        split at hs
        · rename_i hp
          rw [if_pos hp]
          exact ih ht hs
        · rename_i hp
          rw [if_neg hp]
          split at hs
          · cases hs
          · rename_i hp
            rw [if_neg hp]
            exact ih ht hs
    | escaped =>
      unfold Lib.scanString at hs ⊢
      split at hs
      · rename_i hp
        rw [if_pos hp]
        exact ih ht hs
      · rename_i hp
        rw [if_neg hp]
        split at hs
        · exact ih ht hs
        · cases hs
    | hex digits =>
      unfold Lib.scanString at hs ⊢
      split at hs
      · cases hs
      · split at hs
        · rename_i hdigits
          rw [if_pos hdigits]
          exact ih ht hs
        · rename_i hdigits
          rw [if_neg hdigits]
          exact ih ht hs

theorem word {d d' : Dialect} (hd : d.Within d') {s t r : PyStr} {v : Json} (h : R s t)
    (hs : Lib.word d s = some (v, r)) : ∃ r', Lib.word d' t = some (v, r') ∧ R r r' := by
  obtain ⟨w, hw, rfl⟩ := word_eq_some hs
  have hletters : ∀ w ∈ words d, w.1.all (fun p => !isJsonSpace p) = true := by
    unfold words
    cases d.constants <;> decide
  have hspace : ∀ p ∈ w, isJsonSpace p = false := fun p hp => by
    simpa using List.all_eq_true.mp (hletters _ hw) p hp
  obtain ⟨t', rfl, ht⟩ := hR.append hspace h
  exact ⟨t', word_of_mem (hd.words hw) t', ht⟩

theorem number {d d' : Dialect} (hd : d.Within d') {s t r : PyStr} {v : Json} (h : R s t)
    (hs : Lib.number d s = .ok (v, r)) : ∃ r', Lib.number d' t = .ok (v, r') ∧ R r r' := by
  obtain ⟨text, kind, hkind, rfl, hend⟩ := number_eq_ok hs
  obtain ⟨state, hstate, -⟩ := Option.bind_eq_some_iff.mp hkind
  have hspace : ∀ p ∈ text.map codePoint, isJsonSpace p = false := fun p hp =>
    Starts.not_space (Or.inl (scanNumber_chars hstate p hp))
  obtain ⟨r', rfl, hr⟩ := hR.append hspace h
  refine ⟨r', ?_, hr⟩
  obtain ⟨htake, hdrop⟩ := takeWhile_number hkind hend
  obtain ⟨htake', hdrop'⟩ := takeWhile_number hkind (hR.endsNumber hr hend)
  unfold Lib.number at hs ⊢
  dsimp only at hs ⊢
  rw [htake, hdrop, chars_map, hkind] at hs
  rw [htake', hdrop', chars_map, hkind]
  cases kind with
  | float =>
    cases hs
    rfl
  | int =>
    dsimp only at hs ⊢
    split at hs
    · rename_i hdigits
      cases hs
      rw [if_pos (hd.maxDigits _ hdigits)]
    · cases hs

/-- **What one text is read as, so is the other.** -/
theorem reads {d d' : Dialect} (hd : d.Within d') {s t r : PyStr} {item : Item}
    (hs : Reads d s item r) (h : R s t) : ∃ r', Reads d' t item r' ∧ R r r' := by
  have hskip {s t : PyStr} {item : Item} {r : PyStr} (hs : Reads d (Lib.skipSpace s) item r)
      (h : R s t) : R (Lib.skipSpace s) (Lib.skipSpace t) := hR.skipSpace h fun hnil => by
    obtain ⟨p, t, heq, -⟩ := hs.starts
    rw [hnil] at heq
    cases heq
  induction hs generalizing t with
  | word hword =>
    obtain ⟨r', hword', hr⟩ := hR.word hd h hword
    exact ⟨r', .word hword', hr⟩
  | number hnumber =>
    obtain ⟨r', hnumber', hr⟩ := hR.number hd h hnumber
    exact ⟨r', .number hnumber', hr⟩
  | str hscan =>
    obtain ⟨t, rfl, hst⟩ := hR.cons_of_not_space h (by decide)
    obtain ⟨r', hscan', hr⟩ := hR.scanString hst hscan
    exact ⟨r', .str hscan', hr⟩
  | emptyArr hend =>
    obtain ⟨t, rfl, hst⟩ := hR.cons_of_not_space h (by decide)
    obtain ⟨r', hend', hr⟩ := hR.mark hst hend
    exact ⟨r', .emptyArr hend', hr⟩
  | arr hvs ih =>
    obtain ⟨t, rfl, hst⟩ := hR.cons_of_not_space h (by decide)
    obtain ⟨r', hvs', hr⟩ := ih (hskip hvs hst)
    exact ⟨r', .arr hvs', hr⟩
  | emptyObj hend =>
    obtain ⟨t, rfl, hst⟩ := hR.cons_of_not_space h (by decide)
    obtain ⟨r', hend', hr⟩ := hR.mark hst hend
    exact ⟨r', .emptyObj hend', hr⟩
  | obj hkvs ih =>
    obtain ⟨t, rfl, hst⟩ := hR.cons_of_not_space h (by decide)
    obtain ⟨r', hkvs', hr⟩ := ih (hskip hkvs hst)
    exact ⟨r', .obj hkvs', hr⟩
  | last hv hend ih =>
    obtain ⟨t₁, hv', h₁⟩ := ih h
    obtain ⟨t₂, hend', h₂⟩ := hR.mark h₁ hend
    exact ⟨t₂, .last hv' hend', h₂⟩
  | next hv hcomma hrest ih ih' =>
    obtain ⟨t₁, hv', h₁⟩ := ih h
    obtain ⟨t₂, hcomma', h₂⟩ := hR.mark h₁ hcomma
    obtain ⟨t₃, hrest', h₃⟩ := ih' (hskip hrest h₂)
    exact ⟨t₃, .next hv' hcomma' hrest', h₃⟩
  | lastMember hkey hcolon hv hend ih =>
    obtain ⟨t, rfl, hst⟩ := hR.cons_of_not_space h (by decide)
    obtain ⟨t₁, hkey', h₁⟩ := hR.scanString hst hkey
    obtain ⟨t₂, hcolon', h₂⟩ := hR.mark h₁ hcolon
    obtain ⟨t₃, hv', h₃⟩ := ih (hskip hv h₂)
    obtain ⟨t₄, hend', h₄⟩ := hR.mark h₃ hend
    exact ⟨t₄, .lastMember hkey' hcolon' hv' hend', h₄⟩
  | nextMember hkey hcolon hv hcomma hrest ih ih' =>
    obtain ⟨t, rfl, hst⟩ := hR.cons_of_not_space h (by decide)
    obtain ⟨t₁, hkey', h₁⟩ := hR.scanString hst hkey
    obtain ⟨t₂, hcolon', h₂⟩ := hR.mark h₁ hcolon
    obtain ⟨t₃, hv', h₃⟩ := ih (hskip hv h₂)
    obtain ⟨t₄, hcomma', h₄⟩ := hR.mark h₃ hcomma
    obtain ⟨t₅, hrest', h₅⟩ := ih' (hskip hrest h₄)
    exact ⟨t₅, .nextMember hkey' hcolon' hv' hcomma' hrest', h₅⟩

end Keeps

/-- The same text is a case of this. -/
theorem keeps_eq : Keeps Eq where
  cons h _ _ := ⟨_, h.symm, rfl⟩
  skipSpace h _ := congrArg skipSpace h
  endsNumber h hs := h ▸ hs

/-- A wider dialect reads the same. -/
theorem Reads.within {d d' : Dialect} (hd : d.Within d') {s r : PyStr} {item : Item}
    (h : Reads d s item r) : Reads d' s item r := by
  obtain ⟨r', h', rfl⟩ := keeps_eq.reads hd h rfl
  exact h'

/-- So does a text with something behind it, where no number goes on. -/
theorem keeps_append {x : PyStr} (hx : EndsNumber x) : Keeps fun s t => t = s ++ x where
  cons h _ _ := ⟨_, h, rfl⟩
  skipSpace {s t} h hs := by
    subst h
    unfold Lib.skipSpace at hs ⊢
    rw [List.dropWhile_append, if_neg (by simpa using hs)]
  endsNumber {s t} h hs := by
    subst h
    cases s with
    | nil => exact hx
    | cons p s => exact hs

/-- What follows does not matter, as long as no number goes on. -/
theorem Reads.append {d : Dialect} {s r x : PyStr} {item : Item} (h : Reads d s item r)
    (hx : EndsNumber x) : Reads d (s ++ x) item (r ++ x) := by
  obtain ⟨r', h', rfl⟩ := (keeps_append hx).reads (.refl d) h rfl
  exact h'

/-- Spaces after the value may be left out. -/
theorem keeps_spaces {x : PyStr} (hx : skipSpace x = []) : Keeps fun s t => s = t ++ x where
  cons {p s t} h _ hmore := by
    cases t with
    | nil =>
      rw [h, List.nil_append] at hmore
      exact absurd hx hmore
    | cons q t =>
      obtain ⟨rfl, rfl⟩ := List.cons.inj h
      exact ⟨t, rfl, rfl⟩
  skipSpace {s t} h hmore := by
    subst h
    unfold Lib.skipSpace at hx hmore ⊢
    rw [List.dropWhile_append]
    split
    · rename_i hnil
      rw [List.dropWhile_append, if_pos hnil] at hmore
      exact absurd hx hmore
    · rfl
  endsNumber {s t} h hs := by
    subst h
    intro p hp
    exact hs p (by rw [List.head?_append, hp]; rfl)

/-! ## A stripped text -/

theorem isSpace_of_isJsonSpace {p : CodePoint} (h : isJsonSpace p = true) : isSpace p = true := by
  have hall : ∀ n ∈ [0x20, 0x09, 0x0a, 0x0d], n ∈ spaces := by decide
  exact decide_eq_true (hall p.val (List.contains_iff_mem.mp h))

theorem not_isSpace {p : CodePoint} (h : 0x20 < p.val ∧ p.val < 0x7f) : isSpace p = false := by
  have hall : ∀ n ∈ spaces, ¬ (0x20 < n ∧ n < 0x7f) := by decide
  exact Bool.eq_false_iff.mpr fun hspace => hall _ (of_decide_eq_true hspace) h

/-- Before `r` the text ends in a character that is no space. -/
def EndsAt (s r : PyStr) : Prop := ∃ u p, s = u ++ p :: r ∧ isSpace p = false

theorem EndsAt.trans {s r t : PyStr} (h : EndsAt s r) (h' : EndsAt r t) : EndsAt s t := by
  obtain ⟨u, p, rfl, -⟩ := h
  obtain ⟨u', p', rfl, hp'⟩ := h'
  exact ⟨u ++ p :: u', p', by rw [List.append_assoc, List.cons_append], hp'⟩

theorem EndsAt.cons {s r : PyStr} (h : EndsAt s r) (p : CodePoint) : EndsAt (p :: s) r := by
  obtain ⟨u, q, rfl, hq⟩ := h
  exact ⟨p :: u, q, rfl, hq⟩

theorem EndsAt.of_skipSpace {s r : PyStr} (h : EndsAt (skipSpace s) r) : EndsAt s r := by
  obtain ⟨u, p, heq, hp⟩ := h
  refine ⟨s.takeWhile isJsonSpace ++ u, p, ?_, hp⟩
  rw [List.append_assoc, ← heq]
  exact List.takeWhile_append_dropWhile.symm

theorem endsAt_mark {s r : PyStr} {p : CodePoint} (h : skipSpace s = p :: r)
    (hp : isSpace p = false) : EndsAt s r := EndsAt.of_skipSpace ⟨[], p, h, hp⟩

theorem endsAt_append {w : PyStr} (hne : w ≠ []) (hw : ∀ p ∈ w, isSpace p = false) (r : PyStr) :
    EndsAt (w ++ r) r := by
  refine ⟨w.dropLast, w.getLast hne, ?_, hw _ (List.getLast_mem hne)⟩
  rw [← List.singleton_append, ← List.append_assoc, List.dropLast_append_getLast hne]

theorem endsAt_scanString {scan : Scan} {high : Option CodePoint} {read s text r : PyStr}
    (h : scanString scan high read s = .ok (text, r)) : EndsAt s r := by
  obtain ⟨u, hu⟩ := quote_mem h
  exact ⟨u, _, hu, by decide⟩

/-- The last code point of a value is no space. -/
theorem Reads.endsAt {d : Dialect} {s r : PyStr} {item : Item} (h : Reads d s item r) :
    EndsAt s r := by
  induction h with
  | word h =>
    obtain ⟨w, hw, rfl⟩ := word_eq_some h
    have hletters : ∀ w ∈ words d, w.1 ≠ [] ∧ w.1.all (fun p => !isSpace p) = true := by
      unfold words
      cases d.constants <;> decide
    refine endsAt_append (hletters _ hw).1 (fun p hp => ?_) _
    simpa using List.all_eq_true.mp (hletters _ hw).2 p hp
  | number h =>
    obtain ⟨text, kind, hkind, rfl, -⟩ := number_eq_ok h
    obtain ⟨state, hstate, -⟩ := Option.bind_eq_some_iff.mp hkind
    obtain ⟨p, t, heq, -⟩ := begins_number hkind
    refine endsAt_append (by rw [heq]; exact List.cons_ne_nil p t) (fun p hp => ?_) _
    exact not_isSpace (Starts.bounds (Or.inl (scanNumber_chars hstate p hp)))
  | str h => exact (endsAt_scanString h).cons _
  | emptyArr h | emptyObj h => exact (endsAt_mark h (by decide)).cons _
  | arr _ ih | obj _ ih => exact ih.of_skipSpace.cons _
  | last _ hend ih => exact ih.trans (endsAt_mark hend (by decide))
  | next _ hcomma _ ih ih' =>
    exact (ih.trans (endsAt_mark hcomma (by decide))).trans ih'.of_skipSpace
  | lastMember hkey hcolon _ hend ih =>
    have hvalue := (endsAt_scanString hkey).trans (endsAt_mark hcolon (by decide))
    exact ((hvalue.trans ih.of_skipSpace).trans (endsAt_mark hend (by decide))).cons _
  | nextMember hkey hcolon _ hcomma _ ih ih' =>
    have hvalue := (endsAt_scanString hkey).trans (endsAt_mark hcolon (by decide))
    have hrest := (hvalue.trans ih.of_skipSpace).trans (endsAt_mark hcomma (by decide))
    exact (hrest.trans ih'.of_skipSpace).cons _

/-- `strip` takes off the spaces on both sides, and nothing of the value. -/
theorem strip_eq {a t b : PyStr} (ha : ∀ p ∈ a, isSpace p = true) (hb : ∀ p ∈ b, isSpace p = true)
    (hstart : ∃ p u, t = p :: u ∧ isSpace p = false)
    (hend : ∃ u p, t = u ++ [p] ∧ isSpace p = false) : strip (a ++ t ++ b) = t := by
  obtain ⟨p, u, hpu, hp⟩ := hstart
  obtain ⟨w, q, hwq, hq⟩ := hend
  have hleft : (a ++ t ++ b).dropWhile isSpace = t ++ b := by
    rw [List.append_assoc, List.dropWhile_append_of_pos ha, hpu, List.cons_append,
      List.dropWhile_cons_of_neg (by rw [hp]; decide)]
  have hback : ∀ p ∈ b.reverse, isSpace p = true := fun p hmem => hb p (List.mem_reverse.mp hmem)
  rw [strip, hleft, List.rdropWhile, List.reverse_append, List.dropWhile_append_of_pos hback, hwq,
    List.reverse_append, List.reverse_singleton, List.singleton_append,
    List.dropWhile_cons_of_neg (by rw [hq]; decide), List.reverse_cons, List.reverse_reverse]

theorem isJsonSpace_of_skipSpace {s : PyStr} (h : skipSpace s = []) :
    ∀ p ∈ s, isJsonSpace p = true := List.dropWhile_eq_nil_iff.mp h

/-- What is read is read without the spaces around it. -/
theorem parse_strip {d : Dialect} {s : PyStr} {v : Json} (h : parse d s = .ok v) :
    parse d (strip s) = .ok v := by
  obtain ⟨r, hreads, hend⟩ := parse_eq_ok.mp h
  obtain ⟨u, q, heq, hq⟩ := hreads.endsAt
  obtain ⟨p, t, hpt, hp⟩ := hreads.starts
  have hsplit : skipSpace s = (u ++ [q]) ++ r := by
    rw [heq, List.append_assoc, List.singleton_append]
  have hstart : ∃ p t, u ++ [q] = p :: t ∧ isSpace p = false := by
    cases u with
    | nil => exact ⟨q, [], rfl, hq⟩
    | cons p' u =>
      rw [hpt] at heq
      obtain ⟨rfl, -⟩ := List.cons.inj heq
      exact ⟨p, u ++ [q], rfl, not_isSpace hp.bounds⟩
  have hstrip : strip s = u ++ [q] := by
    have hs : s = s.takeWhile isJsonSpace ++ (u ++ [q]) ++ r := by
      rw [List.append_assoc, ← hsplit]
      exact List.takeWhile_append_dropWhile.symm
    rw [hs]
    refine strip_eq (fun p hmem => isSpace_of_isJsonSpace (List.mem_takeWhile_imp hmem))
      (fun p hmem => isSpace_of_isJsonSpace (isJsonSpace_of_skipSpace hend p hmem)) hstart
      ⟨u, q, rfl, hq⟩
  obtain ⟨r', hreads', hr⟩ := (keeps_spaces hend).reads (.refl d) hreads hsplit
  have hnil : r' = [] := List.append_left_eq_self.mp hr.symm
  rw [hstrip]
  refine parse_eq_ok.mpr ⟨r', ?_, by rw [hnil]; rfl⟩
  rw [hreads'.skipSpace_eq]
  exact hreads'

end Lib
