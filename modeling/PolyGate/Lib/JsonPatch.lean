import Mathlib.Data.List.Basic
import PolyGate.Lib.PyDict

/-!
# `Lib/JsonPatch.lean` — the difference of two JSON values, as a patch

A place in a value is a list of keys, and `edits` are the places at which two values differ, with
what is there in each. For two values of one shape (`Alike`) the edits are a patch from the one to
the other, and no place is inside of another.
-/

namespace Lib

/-! ## Places -/

/-- What is at a place. -/
def getAt : Json → List PyStr → Option Json
  | v, [] => some v
  | .obj d, k :: ks => (d.lookup k).bind (getAt · ks)
  | _, _ :: _ => none

/-- The value with another at a place that it has. -/
def setAt : Json → List PyStr → Json → Option Json
  | _, [], new => some new
  | .obj d, k :: ks, new =>
    (d.lookup k).bind fun v => (setAt v ks new).map fun v => .obj (setItem d k v)
  | _, _ :: _, _ => none

/-- `d.get(key)` -/
def child (d : Obj) (k : PyStr) : Json := (d.lookup k).getD .null

theorem sizeOf_child (d : Obj) (k : PyStr) : sizeOf (child d k) < sizeOf (Json.obj d) := by
  unfold child
  induction d with
  | nil => simp
  | cons e d ih =>
    obtain ⟨k', v⟩ := e
    rw [List.lookup_cons]
    split
    · simp only [Option.getD_some, Json.obj.sizeOf_spec, List.cons.sizeOf_spec, Prod.mk.sizeOf_spec]
      omega
    · simp only [Json.obj.sizeOf_spec, List.cons.sizeOf_spec] at ih ⊢
      omega

theorem lookup_child {d : Obj} {k : PyStr} (h : k ∈ d.map (·.1)) :
    d.lookup k = some (child d k) := by
  unfold child
  cases hlookup : d.lookup k with
  | some v => rfl
  | none =>
    obtain ⟨kv, hkv, heq⟩ := List.mem_map.mp h
    exact absurd heq (lookup_eq_none_iff.mp hlookup kv hkv)

theorem mem_of_lookup {d : Obj} {k : PyStr} {v : Json} (h : d.lookup k = some v) :
    k ∈ d.map (·.1) := by
  by_contra hnot
  rw [lookup_eq_none_iff.mpr fun kv hkv heq => hnot (List.mem_map.mpr ⟨kv, hkv, heq⟩)] at h
  cases h

theorem keys_setItem {d : Obj} {k : PyStr} (h : k ∈ d.map (·.1)) (v : Json) :
    (setItem d k v).map (·.1) = d.map (·.1) := by
  obtain ⟨kv, hkv, heq⟩ := List.mem_map.mp h
  unfold setItem
  rw [if_pos (List.any_eq_true.mpr ⟨kv, hkv, decide_eq_true heq⟩), keys_replace]

/-! ## Edits -/

/-- What is before and after at a place. -/
structure Edit where
  keys : List PyStr
  before : Json
  after : Json

namespace Edit

/-- The edit, one key further down. -/
def under (k : PyStr) (e : Edit) : Edit := { e with keys := k :: e.keys }

def apply (v : Json) (e : Edit) : Option Json := setAt v e.keys e.after

/-- The edits, one after the other. -/
def applyAll (v : Json) (es : List Edit) : Option Json := es.foldlM apply v

end Edit

/-- Where two values differ, and how. The keys are looked at in the order that `order` says. -/
def edits (order : Obj → Obj → List PyStr) : Json → Json → List Edit
  | .obj d, .obj d' => (order d d').flatMap fun k =>
      (edits order (child d k) (child d' k)).map (Edit.under k)
  | v, w => if v.eq w then [] else [⟨[], v, w⟩]
termination_by v => sizeOf v
decreasing_by exact sizeOf_child d k

/-! ## Values of one shape -/

def dot : CodePoint := codePoint '.'

/-- Neither text begins with the other. -/
def Apart (s t : PyStr) : Prop := ¬ s <+: t ∧ ¬ t <+: s

instance (s t : PyStr) : Decidable (Apart s t) := inferInstanceAs (Decidable (_ ∧ _))

theorem Apart.symm {s t : PyStr} (h : Apart s t) : Apart t s := ⟨h.2, h.1⟩

theorem Apart.ne {s t : PyStr} (h : Apart s t) : s ≠ t := fun heq => h.1 (heq ▸ List.prefix_refl s)

/-- ASCII text without a dot, and not empty. -/
def isWord (k : PyStr) : Bool := !k.isEmpty && k.all fun p => p.val < 0x80 && p ≠ dot

/-- The keys of an object, of which a path could take none for another or for two. -/
structure Names (keys : List PyStr) : Prop where
  word : ∀ k ∈ keys, isWord k = true
  apart : keys.Pairwise Apart

instance (keys : List PyStr) : Decidable (Names keys) :=
  decidable_of_iff ((∀ k ∈ keys, isWord k = true) ∧ keys.Pairwise Apart)
    ⟨fun h => ⟨h.1, h.2⟩, fun h => ⟨h.word, h.apart⟩⟩

theorem Names.nodup {keys : List PyStr} (h : Names keys) : keys.Nodup := h.apart.imp Apart.ne

theorem isWord_iff {k : PyStr} :
    isWord k = true ↔ k ≠ [] ∧ (∀ p ∈ k, p.val < 0x80) ∧ dot ∉ k := by
  simp only [isWord, Bool.and_eq_true, Bool.not_eq_true', List.isEmpty_eq_false_iff,
    List.all_eq_true, decide_eq_true_iff, forall_and]
  refine and_congr_right fun _ => and_congr_right fun _ => ?_
  exact ⟨fun h hmem => h dot hmem rfl, fun h p hp heq => h (heq ▸ hp)⟩

/-- Two numbers or two texts; the integers are ones that a double holds. -/
inductive Leaf : Json → Json → Prop
  | int {m n : Int} (hm : m.natAbs ≤ 2 ^ 53) (hn : n.natAbs ≤ 2 ^ 53) : Leaf (.int m) (.int n)
  | float (p q : ℚ) : Leaf (.float (.ofRat p)) (.float (.ofRat q))
  | text (s t : String) : Leaf (.str (str s)) (.str (str t))

/-- Objects with the same keys all the way down. -/
inductive Alike : Json → Json → Prop
  | leaf {v w : Json} (h : Leaf v w) : Alike v w
  | obj {d d' : Obj} (names : Names (d.map (·.1))) (keys : d'.map (·.1) = d.map (·.1))
      (fields : ∀ k ∈ d.map (·.1), Alike (child d k) (child d' k)) : Alike (.obj d) (.obj d')

theorem Leaf.eq_iff {v w : Json} (h : Leaf v w) : v.eq w = true ↔ v = w := by
  cases h with
  | int hm hn =>
    rw [Json.eq_int, decide_eq_true_iff, Json.int.injEq]
  | float p q =>
    show (PyFloat.ofRat p).eq (.ofRat q) = true ↔ _
    rw [PyFloat.eq_ofRat, decide_eq_true_iff]
    refine ⟨fun h => h ▸ rfl, fun h => ?_⟩
    have heq := PyFloat.eq_ofRat p q
    rw [Json.float.inj h, PyFloat.eq_ofRat, decide_eq_decide] at heq
    exact heq.mp rfl
  | text s t =>
    rw [Json.eq, decide_eq_true_iff, Json.str.injEq]

section Edits
variable {order : Obj → Obj → List PyStr} {v w : Json}

theorem Leaf.edits_eq (h : Leaf v w) : edits order v w = if v.eq w then [] else [⟨[], v, w⟩] := by
  cases h <;> rw [edits] <;> simp

/-- An order of the keys of objects that have the same. -/
def Lists (order : Obj → Obj → List PyStr) : Prop :=
  ∀ d d' : Obj, Names (d.map (·.1)) → d'.map (·.1) = d.map (·.1) →
    (order d d').Perm (d.map (·.1))

/-! ## The edits are a patch -/

/-- Two objects with the same keys and the same values. -/
theorem obj_ext {d d' : Obj} (hkeys : d'.map (·.1) = d.map (·.1)) (hnodup : (d.map (·.1)).Nodup)
    (h : ∀ k ∈ d.map (·.1), d'.lookup k = d.lookup k) : d' = d := by
  induction d generalizing d' with
  | nil => exact List.map_eq_nil_iff.mp hkeys
  | cons kv d ih =>
    cases d' with
    | nil => cases hkeys
    | cons kv' d' =>
      obtain ⟨k, v⟩ := kv
      obtain ⟨k', v'⟩ := kv'
      rw [List.map_cons, List.nodup_cons] at hnodup
      obtain ⟨hk, hrest⟩ := List.cons.inj hkeys
      have hk' : k' = k := hk
      subst hk'
      have hhead := h k' List.mem_cons_self
      simp only [List.lookup_cons_self, Option.some.injEq] at hhead
      rw [hhead, ih hrest hnodup.2 fun key hkey => ?_]
      have hne : key ≠ k' := fun heq => hnodup.1 (heq ▸ hkey)
      have htail := h key (List.mem_cons_of_mem _ hkey)
      simpa [List.lookup_cons, beq_eq_false_iff_ne.mpr hne] using htail

/-- Under a key, edits change what is there and nothing else. -/
theorem applyAll_under {d : Obj} {k : PyStr} {es : List Edit} {v w : Json}
    (hv : d.lookup k = some v) (h : Edit.applyAll v es = some w) :
    ∃ d', Edit.applyAll (.obj d) (es.map (Edit.under k)) = some (.obj d') ∧
      d'.map (·.1) = d.map (·.1) ∧ ∀ k', d'.lookup k' = if k' = k then some w else d.lookup k' := by
  induction es generalizing d v with
  | nil =>
    cases h
    refine ⟨d, rfl, rfl, fun k' => ?_⟩
    split
    · rename_i heq
      rw [heq, hv]
    · rfl
  | cons e es ih =>
    obtain ⟨v', hset, hrest⟩ : ∃ v', Edit.apply v e = some v' ∧ Edit.applyAll v' es = some w := by
      simpa [Edit.applyAll, List.foldlM_cons, Option.bind_eq_some_iff] using h
    have hlookup (k' : PyStr) := lookup_setItem d k k' v'
    obtain ⟨d', happly, hkeys, hd'⟩ := ih (d := setItem d k v') (by rw [hlookup, if_pos rfl]) hrest
    refine ⟨d', ?_, hkeys.trans ?_, fun k' => ?_⟩
    · have hfirst : Edit.apply (.obj d) (e.under k) = some (.obj (setItem d k v')) := by
        unfold Edit.apply at hset ⊢
        simp only [Edit.under, setAt, hv, Option.bind_some, hset, Option.map_some]
      rw [Edit.applyAll, List.map_cons, List.foldlM_cons, hfirst]
      exact happly
    · exact keys_setItem (mem_of_lookup hv) v'
    · rw [hd', hlookup]
      split
      · rfl
      · rfl

/-- The edits of several keys, each changing what is under its own. -/
theorem applyAll_flatMap {d : Obj} {ks : List PyStr} (hks : ks.Nodup) {es : PyStr → List Edit}
    {value new : PyStr → Json} (hvalue : ∀ k ∈ ks, d.lookup k = some (value k))
    (hes : ∀ k ∈ ks, Edit.applyAll (value k) (es k) = some (new k)) :
    ∃ d', Edit.applyAll (.obj d) (ks.flatMap fun k => (es k).map (Edit.under k)) = some (.obj d') ∧
      d'.map (·.1) = d.map (·.1) ∧
      ∀ k, d'.lookup k = if k ∈ ks then some (new k) else d.lookup k := by
  induction ks generalizing d with
  | nil => exact ⟨d, rfl, rfl, fun k => by simp⟩
  | cons k ks ih =>
    rw [List.nodup_cons] at hks
    rw [List.forall_mem_cons] at hvalue hes
    obtain ⟨d₁, hfirst, hkeys₁, hd₁⟩ := applyAll_under hvalue.1 hes.1
    have hvalue₁ : ∀ k' ∈ ks, d₁.lookup k' = some (value k') := by
      intro k' hk'
      rw [hd₁, if_neg fun heq : k' = k => hks.1 (heq ▸ hk')]
      exact hvalue.2 k' hk'
    obtain ⟨d', hrest, hkeys, hd'⟩ := ih hks.2 hvalue₁ hes.2
    refine ⟨d', ?_, hkeys.trans hkeys₁, fun k' => ?_⟩
    · rw [Edit.applyAll, List.flatMap_cons, List.foldlM_append]
      unfold Edit.applyAll at hfirst hrest
      rw [hfirst]
      exact hrest
    · rw [hd', hd₁]
      by_cases hmem : k' ∈ ks
      · simp [hmem]
      · by_cases heq : k' = k <;> simp [hmem, heq]

/-- **The edits are a patch from the one value to the other.** -/
theorem applyAll_edits (horder : Lists order) (h : Alike v w) :
    Edit.applyAll v (edits order v w) = some w := by
  induction h with
  | @leaf v w h =>
    rw [h.edits_eq]
    split
    · rename_i heq
      rw [h.eq_iff.mp heq]
      rfl
    · rfl
  | @obj d d' names keys fields ih =>
    have hperm := horder d d' names keys
    rw [edits]
    obtain ⟨d₁, happly, hkeys, hd₁⟩ := applyAll_flatMap (hperm.nodup_iff.mpr names.nodup)
      (fun k hk => lookup_child (hperm.mem_iff.mp hk)) fun k hk => ih k (hperm.mem_iff.mp hk)
    rw [happly]
    refine congrArg (fun d => some (Json.obj d)) (obj_ext (hkeys.trans keys.symm) ?_ ?_)
    · rw [keys]
      exact names.nodup
    · intro k hk
      rw [hd₁, if_pos (hperm.mem_iff.mpr (keys ▸ hk)), lookup_child hk]

/-- There are no edits when nothing differs. -/
theorem edits_eq_nil_iff (horder : Lists order) (h : Alike v w) : edits order v w = [] ↔ v = w := by
  constructor
  · intro hnil
    have happly := applyAll_edits horder h
    rw [hnil] at happly
    exact Option.some.inj happly
  · intro heq
    induction h with
    | leaf h => rw [h.edits_eq, if_pos (h.eq_iff.mpr heq)]
    | @obj d d' names keys fields ih =>
      cases heq
      rw [edits, List.flatMap_eq_nil_iff]
      intro k hk
      rw [ih k ((horder d d names rfl).mem_iff.mp hk) rfl]
      rfl

/-- An edit says what is at its place before and after. -/
theorem getAt_edits (horder : Lists order) (h : Alike v w) :
    ∀ e ∈ edits order v w, getAt v e.keys = some e.before ∧ getAt w e.keys = some e.after := by
  induction h with
  | leaf h =>
    rw [h.edits_eq]
    split
    · exact List.forall_mem_nil _
    · exact List.forall_mem_singleton.mpr ⟨rfl, rfl⟩
  | @obj d d' names keys fields ih =>
    intro e he
    rw [edits, List.mem_flatMap] at he
    obtain ⟨k, hk, he⟩ := he
    obtain ⟨e', he', rfl⟩ := List.mem_map.mp he
    have hmem := (horder d d' names keys).mem_iff.mp hk
    obtain ⟨hbefore, hafter⟩ := ih k hmem e' he'
    simp only [Edit.under, getAt, lookup_child hmem, lookup_child (keys.symm ▸ hmem : k ∈ _),
      Option.bind_some]
    exact ⟨hbefore, hafter⟩

/-! ## Paths -/

/-- The keys of a place, in one text. -/
def dotted (ks : List PyStr) : PyStr := [dot].intercalate ks

/-- A place, from its path. -/
def splitPath (path : PyStr) : List PyStr := path.splitOn dot

theorem dotted_cons (k : PyStr) (ks : List PyStr) :
    dotted (k :: ks) = if ks = [] then k else k ++ dot :: dotted ks := by
  cases ks with
  | nil => simp [dotted, List.intercalate]
  | cons k' ks => simp [dotted, List.intercalate]

theorem dotted_concat (ks : List PyStr) (k : PyStr) :
    dotted (ks ++ [k]) = if ks = [] then k else dotted ks ++ dot :: k := by
  induction ks with
  | nil => rw [List.nil_append, dotted_cons, if_pos rfl, if_pos rfl]
  | cons k' ks ih =>
    rw [List.cons_append, dotted_cons, if_neg (by simp), ih, if_neg (List.cons_ne_nil _ _),
      dotted_cons]
    split
    · rfl
    · rw [List.append_assoc, List.cons_append]

theorem splitPath_dotted {ks : List PyStr} (hne : ks ≠ []) (hks : ∀ k ∈ ks, dot ∉ k) :
    splitPath (dotted ks) = ks := List.splitOn_intercalate dot hks hne

/-- What is at a path. -/
def getPath (v : Json) (path : PyStr) : Option Json := getAt v (splitPath path)

/-- The value with another at a path that it has. -/
def setPath (v : Json) (path : PyStr) (new : Json) : Option Json := setAt v (splitPath path) new

/-- The keys of an edit are keys of the objects. -/
theorem keys_edits (horder : Lists order) (h : Alike v w) :
    ∀ e ∈ edits order v w, ∀ k ∈ e.keys, isWord k = true := by
  induction h with
  | leaf h =>
    rw [h.edits_eq]
    split
    · exact List.forall_mem_nil _
    · exact List.forall_mem_singleton.mpr (List.forall_mem_nil _)
  | @obj d d' names keys fields ih =>
    intro e he
    rw [edits, List.mem_flatMap] at he
    obtain ⟨k, hk, he⟩ := he
    obtain ⟨e', he', rfl⟩ := List.mem_map.mp he
    have hmem := (horder d d' names keys).mem_iff.mp hk
    exact List.forall_mem_cons.mpr ⟨names.word k hmem, ih k hmem e' he'⟩

/-- Under one key, what was apart stays apart. -/
theorem Apart.under {k : PyStr} {ks ks' : List PyStr} (h : Apart (dotted ks) (dotted ks')) :
    Apart (dotted (k :: ks)) (dotted (k :: ks')) := by
  have hne : ks ≠ [] := by
    rintro rfl
    exact h.1 List.nil_prefix
  have hne' : ks' ≠ [] := by
    rintro rfl
    exact h.2 List.nil_prefix
  rw [dotted_cons, dotted_cons, if_neg hne, if_neg hne']
  constructor
  · intro hprefix
    exact h.1 (List.cons_prefix_cons.mp ((List.prefix_append_right_inj k).mp hprefix)).2
  · intro hprefix
    exact h.2 (List.cons_prefix_cons.mp ((List.prefix_append_right_inj k).mp hprefix)).2

theorem prefix_dotted (k : PyStr) (ks : List PyStr) : k <+: dotted (k :: ks) := by
  rw [dotted_cons]
  split
  · exact List.prefix_refl k
  · exact List.prefix_append _ _

/-- Places under keys that are no prefixes of each other. -/
theorem apart_of_keys {k k' : PyStr} (h : Apart k k') (ks ks' : List PyStr) :
    Apart (dotted (k :: ks)) (dotted (k' :: ks')) := by
  have hnot {k k' : PyStr} (h : Apart k k') (ks ks' : List PyStr) :
      ¬ dotted (k :: ks) <+: dotted (k' :: ks') := by
    intro hprefix
    rcases List.prefix_or_prefix_of_prefix ((prefix_dotted k ks).trans hprefix)
      (prefix_dotted k' ks') with hk | hk
    · exact h.1 hk
    · exact h.2 hk
  exact ⟨hnot h ks ks', hnot h.symm ks' ks⟩

/-- **No edit is at a place that another's path begins with.** -/
theorem apart_edits (horder : Lists order) (h : Alike v w) :
    (edits order v w).Pairwise fun e e' => Apart (dotted e.keys) (dotted e'.keys) := by
  induction h with
  | leaf h =>
    rw [h.edits_eq]
    split
    · exact List.Pairwise.nil
    · exact List.pairwise_singleton _ _
  | @obj d d' names keys fields ih =>
    have hperm := horder d d' names keys
    rw [edits, List.pairwise_flatMap]
    constructor
    · intro k hk
      rw [List.pairwise_map]
      exact (ih k (hperm.mem_iff.mp hk)).imp Apart.under
    · refine ((hperm.pairwise_iff Apart.symm).mpr names.apart).imp fun hk e he e' he' => ?_
      obtain ⟨e, -, rfl⟩ := List.mem_map.mp he
      obtain ⟨e', -, rfl⟩ := List.mem_map.mp he'
      exact apart_of_keys hk _ _

/-! ## Objects given by their entries -/

theorem lookup_of_mem {d : Obj} (hnodup : (d.map (·.1)).Nodup) {k : PyStr} {v : Json}
    (h : (k, v) ∈ d) : d.lookup k = some v := by
  induction d with
  | nil => cases h
  | cons kv d ih =>
    rw [List.map_cons, List.nodup_cons] at hnodup
    rcases List.mem_cons.mp h with rfl | hmem
    · exact List.lookup_cons_self
    · have hne : k ≠ kv.1 := fun heq => hnodup.1 (heq ▸ List.mem_map_of_mem hmem)
      rw [List.lookup_cons, beq_eq_false_iff_ne.mpr hne]
      exact ih hnodup.2 hmem

/-- Each entry is a key with what the two objects hold for it. -/
theorem alike_obj (entries : List (String × Json × Json))
    (names : Names ((entries.map (·.1)).map str)) (h : ∀ e ∈ entries, Alike e.2.1 e.2.2) :
    Alike (.obj (entries.map fun e => (str e.1, e.2.1)))
      (.obj (entries.map fun e => (str e.1, e.2.2))) := by
  have hkeys (value : String × Json × Json → Json) :
      (entries.map fun e => (str e.1, value e)).map (·.1) = (entries.map (·.1)).map str := by
    rw [List.map_map, List.map_map]
    rfl
  have hchild (value : String × Json × Json → Json) {e} (he : e ∈ entries) :
      child (entries.map fun e => (str e.1, value e)) (str e.1) = value e := by
    unfold child
    rw [lookup_of_mem ((hkeys value).symm ▸ names.nodup) (List.mem_map.mpr ⟨e, he, rfl⟩)]
    rfl
  refine Alike.obj ((hkeys fun e => e.2.1).symm ▸ names) ((hkeys _).trans (hkeys _).symm) ?_
  intro k hk
  rw [hkeys fun e => e.2.1] at hk
  rw [List.map_map] at hk
  obtain ⟨e, he, rfl⟩ := List.mem_map.mp hk
  have hbefore := hchild (fun e => e.2.1) he
  have hafter := hchild (fun e => e.2.2) he
  simp only [Function.comp_apply] at hbefore hafter ⊢
  rw [hbefore, hafter]
  exact h e he

end Edits

end Lib
