import PolyGate.Automation.PolicyManager
import PolyGate.Automation.RedisStore

/-!
# `Automation/Policy/NextDocument.lean` — the document `_commit` builds

What `_commit` computes by retiring, appending, sorting and dropping is said here in terms of
the numbers alone: the old records retired and the new one, less those with `MAX_VERSIONS` or
more above them (`Extends`). `buildDocument` never builds a document that breaks the integrity
rules, so only the new record can be refused.
-/

namespace PolyGate.Automation

open Lib (Time)

/-! ## The twenty highest -/

/-- The records with fewer than `MAX_VERSIONS` above them. -/
def retained (versions : List PolicyVersion) : List PolicyVersion :=
  versions.filter fun v =>
    decide ((versions.filter (v.version < ·.version)).length < maxVersions)

theorem mem_retained {versions : List PolicyVersion} {v : PolicyVersion} :
    v ∈ retained versions ↔
      v ∈ versions ∧ (versions.filter (v.version < ·.version)).length < maxVersions := by
  simp [retained]

/-- Up to `MAX_VERSIONS` records, all are retained. -/
theorem retained_of_length_le {versions : List PolicyVersion}
    (h : versions.length ≤ maxVersions) : retained versions = versions := by
  refine List.filter_eq_self.mpr fun v hv => ?_
  have hlt : (versions.filter (v.version < ·.version)).length < versions.length :=
    List.length_filter_lt_length_iff_exists.mpr ⟨v, hv, by simp⟩
  exact decide_eq_true (by omega)

/-- One more than that, and the lowest goes. -/
theorem retained_of_length_eq {versions : List PolicyVersion} {m : PolicyVersion}
    (hlen : versions.length = maxVersions + 1) (hm : m ∈ versions)
    (hnd : (versions.map (·.version)).Nodup) (hmin : ∀ v ∈ versions, m.version ≤ v.version) :
    retained versions = versions.filter (·.version ≠ m.version) := by
  have habove : (versions.filter (m.version < ·.version)).length = maxVersions := by
    have hsplit := versions.length_eq_countP_add_countP (fun v => decide (v.version = m.version))
    have hone : versions.countP (fun v => decide (v.version = m.version)) = 1 := by
      have hc := List.count_eq_one_of_mem hnd (List.mem_map_of_mem hm)
      rw [List.count, List.countP_map] at hc
      rw [← hc]
      exact List.countP_congr fun v _ => by simp
    have hrest : versions.countP (fun v => decide ¬decide (v.version = m.version) = true) =
        (versions.filter (m.version < ·.version)).length := by
      rw [← List.countP_eq_length_filter]
      refine List.countP_congr fun v hv => ?_
      have := hmin v hv
      simp
      omega
    omega
  refine List.filter_congr fun v hv => ?_
  rcases eq_or_ne v.version m.version with he | hne
  · simp [he, habove]
  · -- what is above `v` is above `m`, and `v` is not above itself
    have hsub : versions.filter (v.version < ·.version) =
        (versions.filter (m.version < ·.version)).filter (v.version < ·.version) := by
      rw [List.filter_filter]
      refine List.filter_congr fun w _ => ?_
      have := hmin v hv
      rw [Bool.eq_iff_iff, Bool.and_eq_true]
      simp
      omega
    have hlt : ((versions.filter (m.version < ·.version)).filter (v.version < ·.version)).length <
        (versions.filter (m.version < ·.version)).length := by
      refine List.length_filter_lt_length_iff_exists.mpr ⟨v, List.mem_filter.mpr ⟨hv, ?_⟩, ?_⟩
      · have := hmin v hv
        simp
        omega
      · simp
    rw [← hsub, habove] at hlt
    simp [hne, hlt]

/-! ## The document `_commit` builds -/

section Build

variable (d : PolicyStoreDocument) {r : PolicyVersion}

/-- The records of `d` retired, and a new one. -/
def grown (d : PolicyStoreDocument) (r : PolicyVersion) : List PolicyVersion :=
  d.versions.map (·.retire) ++ [r]

@[simp] theorem PolicyVersion.retire_version (v : PolicyVersion) :
    v.retire.version = v.version := by
  unfold PolicyVersion.retire
  split <;> rfl

@[simp] theorem PolicyVersion.retire_status (v : PolicyVersion) :
    v.retire.status = .archived := by
  unfold PolicyVersion.retire
  split
  · rfl
  · cases hs : v.status <;> simp_all

theorem mem_grown {v : PolicyVersion} :
    v ∈ grown d r ↔ (∃ w ∈ d.versions, w.retire = v) ∨ v = r := by
  simp [grown]

theorem grown_length : (grown d r).length = d.versions.length + 1 := by simp [grown]

theorem grown_version :
    (grown d r).map (·.version) = d.versions.map (·.version) ++ [r.version] := by
  simp [grown, Function.comp_def]

variable {d}

theorem lt_of_mem_grown (hr : r.version = d.activeVersion + 1) {v : PolicyVersion}
    (hv : v ∈ grown d r) (hne : v ≠ r) : v.version < r.version := by
  rcases (mem_grown d).mp hv with ⟨w, hw, rfl⟩ | rfl
  · have := d.le_active hw
    rw [PolicyVersion.retire_version]
    omega
  · exact absurd rfl hne

theorem grown_nodup (hr : r.version = d.activeVersion + 1) :
    ((grown d r).map (·.version)).Nodup := by
  rw [grown_version, List.nodup_append]
  refine ⟨d.integrity.unique, List.nodup_singleton _, fun a ha b hb => ?_⟩
  obtain ⟨v, hv, rfl⟩ := List.mem_map.mp ha
  have := d.le_active hv
  rw [List.mem_singleton.mp hb]
  omega

theorem archived_grown (hs : r.status = .active) :
    (grown d r).filter (·.status = .archived) = d.versions.map (·.retire) := by
  have hall : (d.versions.map (·.retire)).filter (·.status = .archived) =
      d.versions.map (·.retire) := by
    refine List.filter_eq_self.mpr fun v hv => ?_
    obtain ⟨w, _, rfl⟩ := List.mem_map.mp hv
    simp
  rw [grown, List.filter_append, hall]
  simp [hs]

/-- The lowest archived record of a full document, as `_commit` finds it. -/
theorem exists_lowest (hs : r.status = .active) (hr : r.version = d.activeVersion + 1)
    (hfull : d.versions.length = maxVersions) :
    ∃ m ∈ grown d r, (∀ v ∈ grown d r, m.version ≤ v.version) ∧
      (((grown d r).filter (·.status = .archived)).mergeSort (·.version ≤ ·.version)).take 1 =
        [m] := by
  rw [archived_grown hs]
  generalize hsorted : (d.versions.map (·.retire)).mergeSort (·.version ≤ ·.version) = sorted
  have hmem : ∀ v, v ∈ sorted ↔ v ∈ d.versions.map (·.retire) := fun v => by
    rw [← hsorted, List.mem_mergeSort]
  have hpairwise : sorted.Pairwise (·.version ≤ ·.version) := by
    have h : List.Pairwise (fun v w : PolicyVersion => decide (v.version ≤ w.version) = true) _ :=
      List.pairwise_mergeSort (by simpa using fun a b c : PolicyVersion => Nat.le_trans)
        (by simpa using fun a b : PolicyVersion => Nat.le_total a.version b.version)
        (d.versions.map (·.retire))
    rw [hsorted] at h
    simpa using h
  cases sorted with
  | nil =>
    have hlen := congrArg List.length hsorted
    simp [hfull, maxVersions] at hlen
  | cons m rest =>
    refine ⟨m, ?_, fun v hv => ?_, rfl⟩
    · obtain ⟨w, hw, rfl⟩ := List.mem_map.mp ((hmem m).mp List.mem_cons_self)
      exact (mem_grown d).mpr (Or.inl ⟨w, hw, rfl⟩)
    · have hle : ∀ v ∈ m :: rest, m.version ≤ v.version := by
        refine List.forall_mem_cons.mpr ⟨le_rfl, fun v hv => ?_⟩
        exact (List.pairwise_cons.mp hpairwise).1 v hv
      rcases (mem_grown d).mp hv with ⟨w, hw, rfl⟩ | rfl
      · exact hle _ ((hmem _).mpr (List.mem_map_of_mem hw))
      · obtain ⟨w, hw, rfl⟩ := List.mem_map.mp ((hmem m).mp List.mem_cons_self)
        have := d.le_active hw
        rw [PolicyVersion.retire_version]
        omega

/-- The truncation keeps the twenty highest. -/
theorem truncate_grown (hs : r.status = .active) (hr : r.version = d.activeVersion + 1) :
    truncateVersions (grown d r) = retained (grown d r) := by
  have hbound := d.integrity.length_bounds.2
  unfold truncateVersions
  split
  · rename_i hlong
    have hfull : d.versions.length = maxVersions := by
      rw [grown_length] at hlong
      unfold maxVersions at hlong ⊢
      omega
    obtain ⟨m, hm, hmin, htake⟩ := exists_lowest hs hr hfull
    have hone : (grown d r).length - maxVersions = 1 := by
      rw [grown_length, hfull]
      omega
    rw [retained_of_length_eq (by rw [grown_length, hfull]) hm (grown_nodup hr) hmin]
    dsimp only
    rw [hone, htake]
    simp
  · rename_i hshort
    exact (retained_of_length_le (by omega)).symm

theorem actives_grown (hs : r.status = .active) : actives (grown d r) = [r] := by
  have hnone : actives (d.versions.map (·.retire)) = [] := by
    refine List.filter_eq_nil_iff.mpr fun v hv => ?_
    obtain ⟨w, _, rfl⟩ := List.mem_map.mp hv
    simp
  rw [actives, grown, List.filter_append]
  rw [actives] at hnone
  rw [hnone]
  simp [hs]

theorem mem_retained_grown (hr : r.version = d.activeVersion + 1) : r ∈ retained (grown d r) := by
  have hnone : (grown d r).filter (r.version < ·.version) = [] := by
    refine List.filter_eq_nil_iff.mpr fun v hv => ?_
    by_cases hne : v = r
    · simp [hne]
    · have := lt_of_mem_grown hr hv hne
      simp
      omega
  exact mem_retained.mpr ⟨(mem_grown d).mpr (Or.inr rfl), by rw [hnone]; decide⟩

theorem retained_grown_length (hs : r.status = .active) (hr : r.version = d.activeVersion + 1) :
    (retained (grown d r)).length ≤ maxVersions := by
  have hbound := d.integrity.length_bounds.2
  by_cases hfull : d.versions.length = maxVersions
  · obtain ⟨m, hm, hmin, -⟩ := exists_lowest hs hr hfull
    have hlen : (grown d r).length = maxVersions + 1 := by rw [grown_length, hfull]
    rw [retained_of_length_eq hlen hm (grown_nodup hr) hmin]
    have hlt : ((grown d r).filter (·.version ≠ m.version)).length < (grown d r).length :=
      List.length_filter_lt_length_iff_exists.mpr ⟨m, hm, by simp⟩
    omega
  · have hle := List.length_filter_le (fun v =>
      decide (((grown d r).filter (v.version < ·.version)).length < maxVersions)) (grown d r)
    rw [grown_length] at hle
    unfold retained
    unfold maxVersions at hfull hle ⊢
    omega

/-- **The next document keeps the integrity rules.** -/
theorem rules_retained (hs : r.status = .active) (hr : r.version = d.activeVersion + 1) :
    DocumentRules r.version (retained (grown d r)) where
  active_pos := by omega
  length_bounds := ⟨List.length_pos_of_mem (mem_retained_grown hr), retained_grown_length hs hr⟩
  unique := (grown_nodup hr).sublist (List.filter_sublist.map _)
  one_active := by
    have hmem := mem_retained.mp (mem_retained_grown hr)
    rw [actives, retained, List.filter_comm]
    have hone := actives_grown (d := d) hs
    rw [actives] at hone
    rw [hone]
    simp [hmem.2]
  highest := by
    refine Nat.le_antisymm (le_maxVersion (mem_retained_grown hr)) ?_
    refine maxVersion_le fun v hv => ?_
    by_cases hne : v = r
    · rw [hne]
    · exact (lt_of_mem_grown hr (mem_retained.mp hv).1 hne).le

end Build

/-- `d'` is `d` with the record of a call put on top. -/
structure CommitArgs.Extends (args : CommitArgs) (d d' : PolicyStoreDocument) : Prop where
  version : d'.active.version = d.activeVersion + 1
  versions : d'.versions = retained (grown d d'.active)
  createdBy : d'.active.createdBy = args.actor
  changeNote : d'.active.changeNote = args.changeNote
  rollbackFrom : d'.active.rollbackFrom = args.rollbackFrom
  policy : d'.active.policy = args.draft

theorem CommitArgs.Extends.activeVersion {args : CommitArgs} {d d' : PolicyStoreDocument}
    (h : args.Extends d d') : d'.activeVersion = d.activeVersion + 1 := by
  rw [← d'.active_version, h.version]

theorem PolicyVersion.validate_ok {version : Nat} {status : VersionStatus} {createdAt : Time}
    {createdBy changeNote : String} {rollbackFrom : Option Int} {policy : PolicyDraft}
    {r : PolicyVersion} (h : PolicyVersion.validate version status createdAt createdBy changeNote
      rollbackFrom policy = .ok r) :
    r.version = version ∧ r.status = status ∧ r.createdAt = createdAt ∧
      r.createdBy = createdBy ∧ r.changeNote = changeNote ∧ r.rollbackFrom = rollbackFrom ∧
      r.policy = policy := by
  unfold PolicyVersion.validate at h
  split_ifs at h
  cases h
  exact ⟨rfl, rfl, rfl, rfl, rfl, rfl, rfl⟩

/-- **What `_commit` builds extends what it loaded**, and is refused only with the record. -/
theorem buildDocument_spec (args : CommitArgs) (d : PolicyStoreDocument) (now : Time) :
    (∃ d', buildDocument args d now = .ok d' ∧ args.Extends d d' ∧ d'.active.createdAt = now) ∨
      ∃ e, buildDocument args d now = .error (.validationError "PolicyVersion" e) := by
  unfold buildDocument
  rw [← d.integrity.highest]
  dsimp only
  cases hrecord : PolicyVersion.validate (d.activeVersion + 1) .active now args.actor
      args.changeNote args.rollbackFrom args.draft with
  | error e => exact Or.inr ⟨e, rfl⟩
  | ok r =>
    obtain ⟨hr, hs, hat, hby, hnote, hback, hpolicy⟩ := PolicyVersion.validate_ok hrecord
    have hrules := rules_retained (d := d) hs hr
    have htrunc : truncateVersions (d.versions.map (·.retire) ++ [r]) = retained (grown d r) :=
      truncate_grown hs hr
    rw [hr] at hrules
    dsimp only
    rw [htrunc, PolicyStoreDocument.validate_eq_ok hrules]
    have hactive : r = (⟨_, _, hrules⟩ : PolicyStoreDocument).active :=
      PolicyStoreDocument.eq_active _ (mem_retained_grown hr) hr
    refine Or.inl ⟨⟨_, _, hrules⟩, rfl, ?_, ?_⟩
    · constructor <;> rw [← hactive] <;> assumption
    · rw [← hactive]
      exact hat

/-- A record within its bounds is not refused. -/
theorem buildDocument_ok (args : CommitArgs) (d : PolicyStoreDocument) (now : Time)
    (hactor : 1 ≤ args.actor.length)
    (hnote : 1 ≤ args.changeNote.length ∧ args.changeNote.length ≤ 500)
    (hback : ∀ n ∈ args.rollbackFrom, 1 ≤ n) :
    ∃ d', buildDocument args d now = .ok d' ∧ args.Extends d d' := by
  rcases buildDocument_spec args d now with ⟨d', hb, hext, -⟩ | ⟨e, hb⟩
  · exact ⟨d', hb, hext⟩
  · unfold buildDocument PolicyVersion.validate at hb
    simp only [dif_pos hactor, dif_pos hnote, dif_pos hback] at hb
    rw [dif_pos (Nat.le_add_left ..)] at hb
    dsimp only at hb
    split at hb
    · simp at hb
    · cases hb

/-! ## A document to begin with -/

/-- The draft of `contracts/policy-examples.json`. -/
def exampleDraft : PolicyDraft where
  gateway :=
    { assumedOutputTokens := 256, balancedPriceTolerance := 1 / 5, budgetMode := .soft,
      latencyMode := .soft, highQualityStrategy := .preferReal,
      assumedOutputTokens_bounds := by decide,
      balancedPriceTolerance_bounds := by decide +kernel }
  automation :=
    { urgencyScores := ⟨100, 60, 30, 10, by decide, by decide⟩
      scenarios :=
        { productionIncident := 
            ⟨40, ⟨.high, .high, 1 / 100, 1000, by decide +kernel, by decide⟩, by decide⟩
          customerEscalation :=
            ⟨25, ⟨.balanced, .standard, 1 / 100, 1500, by decide +kernel, by decide⟩, by decide⟩
          financeSummary :=
            ⟨15, ⟨.balanced, .high, 1 / 200, 3000, by decide +kernel, by decide⟩, by decide⟩
          marketingBatch :=
            ⟨0, ⟨.cheap, .standard, 1 / 500, 5000, by decide +kernel, by decide⟩, by decide⟩ }
      queue := defaultQueuePolicy
      finance_privacy := rfl }

def seedRecord : PolicyVersion where
  version := 1
  status := .active
  createdAt := 0
  createdBy := "policy-admin"
  changeNote := "seed"
  rollbackFrom := none
  policy := exampleDraft
  version_pos := by decide
  createdBy_pos := by decide
  changeNote_bounds := by decide
  rollbackFrom_pos := by simp

/-- `_single_version_store(1)` of the tests. -/
def seedDocument : PolicyStoreDocument where
  activeVersion := 1
  versions := [seedRecord]
  integrity := ⟨by decide, by decide, by decide, by decide, by decide⟩

@[simp] theorem seedDocument_active : seedDocument.active = seedRecord :=
  (seedDocument.eq_active (List.mem_singleton_self _) rfl).symm

end PolyGate.Automation
