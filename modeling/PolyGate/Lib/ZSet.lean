import Mathlib.Data.Prod.Lex
import Mathlib.Data.List.Sort
import Mathlib.Data.List.Nodup

/-!
# `Lib/ZSet.lean` — sorted sets

A set of members, each with a score, kept in the order of the scores and, at equal scores, of
the members. Both facts a reader of such a set relies on — no member twice, entries in order —
are fields of the structure, so a `ZSet` without them cannot be built.
-/

namespace Lib

variable {M S : Type} [LinearOrder M] [LinearOrder S]

structure ZSet (M S : Type) [LinearOrder M] [LinearOrder S] where
  entries : List (S ×ₗ M)
  sorted : entries.Pairwise (· ≤ ·)
  nodup : (entries.map fun e => (ofLex e).2).Nodup

namespace ZSet

def empty : ZSet M S := ⟨[], .nil, .nil⟩

/-- The members, lowest score first. -/
def members (z : ZSet M S) : List M := z.entries.map fun e => (ofLex e).2

instance : Membership M (ZSet M S) := ⟨fun z m => m ∈ z.members⟩

instance (m : M) (z : ZSet M S) : Decidable (m ∈ z) := inferInstanceAs (Decidable (m ∈ z.members))

/-- `ZREM` -/
def rem (z : ZSet M S) (m : M) : ZSet M S where
  entries := z.entries.filter fun e => (ofLex e).2 ≠ m
  sorted := z.sorted.filter _
  nodup := z.nodup.sublist (List.filter_sublist.map _)

theorem notMem_rem_entries (z : ZSet M S) (m : M) :
    m ∉ (z.rem m).entries.map fun e => (ofLex e).2 := by
  simp [rem]

/-- `ZADD`: the member keeps one entry, at its new score. -/
def add (z : ZSet M S) (m : M) (s : S) : ZSet M S where
  entries := (z.rem m).entries.orderedInsert (· ≤ ·) (toLex (s, m))
  sorted := (z.rem m).sorted.orderedInsert _ _
  nodup := by
    refine ((List.perm_orderedInsert _ _ _).map _).nodup_iff.mpr ?_
    exact List.nodup_cons.mpr ⟨z.notMem_rem_entries m, (z.rem m).nodup⟩

/-- `ZRANGEBYSCORE`, both ends inclusive. -/
def rangeByScore (z : ZSet M S) (lo hi : S) : List M :=
  (z.entries.filter fun e => lo ≤ (ofLex e).1 ∧ (ofLex e).1 ≤ hi).map fun e => (ofLex e).2

theorem mem_def {z : ZSet M S} {m : M} : m ∈ z ↔ m ∈ z.members := Iff.rfl

@[simp] theorem notMem_empty (m : M) : m ∉ (empty : ZSet M S) := by simp [mem_def, members, empty]

@[simp] theorem mem_rem {z : ZSet M S} {m m' : M} : m' ∈ z.rem m ↔ m' ∈ z ∧ m' ≠ m := by
  simp only [mem_def, members, rem, List.mem_map, List.mem_filter, decide_eq_true_eq]
  constructor
  · rintro ⟨e, ⟨he, hne⟩, rfl⟩
    exact ⟨⟨e, he, rfl⟩, hne⟩
  · rintro ⟨⟨e, he, rfl⟩, hne⟩
    exact ⟨e, ⟨he, hne⟩, rfl⟩

@[simp] theorem mem_add {z : ZSet M S} {m m' : M} {s : S} :
    m' ∈ z.add m s ↔ m' = m ∨ m' ∈ z := by
  have hp : ((z.add m s).members).Perm (m :: (z.rem m).members) :=
    (List.perm_orderedInsert _ _ _).map _
  rw [mem_def, hp.mem_iff, List.mem_cons, ← mem_def, mem_rem]
  by_cases h : m' = m
  · simp [h]
  · simp [h]

theorem rem_entries_of_notMem {z : ZSet M S} {m : M} (h : m ∉ z) :
    (z.rem m).entries = z.entries := by
  refine List.filter_eq_self.mpr fun e he => ?_
  refine decide_eq_true fun heq => h ?_
  exact heq ▸ List.mem_map_of_mem he

/-- A new member with the highest score goes to the end. -/
theorem entries_add_of_last {z : ZSet M S} {m : M} {s : S} (hnot : m ∉ z)
    (hlast : ∀ e ∈ z.entries, (ofLex e).1 < s) :
    (z.add m s).entries = z.entries ++ [toLex (s, m)] := by
  show (z.rem m).entries.orderedInsert (· ≤ ·) (toLex (s, m)) = _
  rw [rem_entries_of_notMem hnot]
  generalize z.entries = entries at hlast
  induction entries with
  | nil => rfl
  | cons e entries ih =>
    have hlt : e < toLex (s, m) := Prod.Lex.lt_iff.mpr (Or.inl (hlast e List.mem_cons_self))
    rw [List.orderedInsert_of_not_le _ _ (not_le_of_gt hlt),
      ih fun e he => hlast e (List.mem_cons_of_mem _ he)]
    rfl

theorem mem_of_mem_rangeByScore {z : ZSet M S} {m : M} {lo hi : S}
    (h : m ∈ z.rangeByScore lo hi) : m ∈ z := by
  obtain ⟨e, he, rfl⟩ := List.mem_map.mp h
  exact List.mem_map_of_mem (List.mem_of_mem_filter he)

end ZSet

end Lib
