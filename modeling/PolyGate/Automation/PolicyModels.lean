import Mathlib.Data.List.Nodup
import PolyGate.Automation.Models

/-!
# `Automation/PolicyModels.lean` — policies, version records and the store document

`automation/app/policy_models.py`. What pydantic and the `model_validator`s enforce is carried
by the structures: a `PolicyStoreDocument` *is* a document whose integrity rules hold.

The two constructors that can fail at run time are kept as functions that return an `Except`:
`PolicyVersion.validate` and `PolicyStoreDocument.validate`, with the checks in the order the
source makes them. `integrityError_eq_none` says that the second refuses exactly the documents
outside the rules.
-/

namespace PolyGate.Automation

open Lib (Time)

inductive Mode | soft | hard
  deriving DecidableEq, Repr

inductive HighQualityStrategy | preferReal | lowestCost
  deriving DecidableEq, Repr

structure GatewayPolicy where
  assumedOutputTokens : Nat
  balancedPriceTolerance : ℚ
  budgetMode : Mode
  latencyMode : Mode
  highQualityStrategy : HighQualityStrategy
  assumedOutputTokens_bounds : 1 ≤ assumedOutputTokens ∧ assumedOutputTokens ≤ 32768
  balancedPriceTolerance_bounds : 0 ≤ balancedPriceTolerance ∧ balancedPriceTolerance ≤ 2
  deriving DecidableEq, Repr

structure UrgencyScores where
  critical : Nat
  high : Nat
  normal : Nat
  low : Nat
  critical_le : critical ≤ 1000
  ordered : critical > high ∧ high > normal ∧ normal > low
  deriving DecidableEq, Repr

structure QueuePolicy where
  waitingBonusIntervalSeconds : Nat
  waitingBonusPoints : Nat
  waitingBonusCap : Nat
  starvationStreakThreshold : Nat
  starvationWaitSeconds : Nat
  interval_bounds : 1 ≤ waitingBonusIntervalSeconds ∧ waitingBonusIntervalSeconds ≤ 3600
  points_le : waitingBonusPoints ≤ 100
  cap_le : waitingBonusCap ≤ 1000
  threshold_bounds : 1 ≤ starvationStreakThreshold ∧ starvationStreakThreshold ≤ 100
  wait_bounds : 1 ≤ starvationWaitSeconds ∧ starvationWaitSeconds ≤ 86400
  deriving DecidableEq, Repr

structure ScenarioPolicy where
  weight : Nat
  defaults : Preferences
  weight_le : weight ≤ 500
  deriving DecidableEq, Repr

structure Scenarios where
  productionIncident : ScenarioPolicy
  customerEscalation : ScenarioPolicy
  financeSummary : ScenarioPolicy
  marketingBatch : ScenarioPolicy
  deriving DecidableEq, Repr

structure AutomationPolicy where
  urgencyScores : UrgencyScores
  scenarios : Scenarios
  queue : QueuePolicy
  finance_privacy : scenarios.financeSummary.defaults.privacy = .high
  deriving DecidableEq, Repr

/-- `PolicyDraft`; its `schema_version` is the literal `1`, so the field carries nothing. -/
structure PolicyDraft where
  gateway : GatewayPolicy
  automation : AutomationPolicy
  deriving DecidableEq, Repr

/-- `schema_version: Literal[1]` -/
def PolicyDraft.schemaVersion (_ : PolicyDraft) : Nat := 1

inductive VersionStatus | active | archived
  deriving DecidableEq, Repr

structure PolicyVersion where
  version : Nat
  status : VersionStatus
  createdAt : Time
  createdBy : String
  changeNote : String
  rollbackFrom : Option Int
  policy : PolicyDraft
  version_pos : 1 ≤ version
  createdBy_pos : 1 ≤ createdBy.length
  changeNote_bounds : 1 ≤ changeNote.length ∧ changeNote.length ≤ 500
  rollbackFrom_pos : ∀ n ∈ rollbackFrom, 1 ≤ n
  deriving DecidableEq, Repr

/-- What a failed pydantic construction reports: the fields that were refused, or, when every
field passed, the message of the `model_validator` that refused the whole. -/
inductive ValidationError
  | fields (loc : List String)
  | model (msg : String)
  deriving DecidableEq, Repr

/-- `PolicyVersion(...)`. `created_at` always carries a time zone here: the only caller passes
`datetime.now(UTC)`. -/
def PolicyVersion.validate (version : Nat) (status : VersionStatus) (createdAt : Time)
    (createdBy changeNote : String) (rollbackFrom : Option Int) (policy : PolicyDraft) :
    Except ValidationError PolicyVersion :=
  if hv : 1 ≤ version then
    if hb : 1 ≤ createdBy.length then
      if hn : 1 ≤ changeNote.length ∧ changeNote.length ≤ 500 then
        if hr : ∀ n ∈ rollbackFrom, 1 ≤ n then
          .ok ⟨version, status, createdAt, createdBy, changeNote, rollbackFrom, policy, hv, hb,
            hn, hr⟩
        else .error (.model "rollback_from must be >= 1 or null")
      else .error (.fields ["change_note"])
    else
      .error (.fields
        (if 1 ≤ changeNote.length ∧ changeNote.length ≤ 500 then ["created_by"]
         else ["created_by", "change_note"]))
  else .error (.fields ["version"])

/-- `v.model_copy(update={"status": "archived"})` -/
def PolicyVersion.archive (v : PolicyVersion) : PolicyVersion := { v with status := .archived }

/-- `[v for v in self.versions if v.status == "active"]` -/
def actives (versions : List PolicyVersion) : List PolicyVersion :=
  versions.filter (·.status = .active)

/-- `max(nums)`; the list is never empty where the source takes it. -/
def maxVersion (versions : List PolicyVersion) : Nat :=
  (versions.map (·.version)).foldr max 0

/-- The integrity rules of a store document. -/
structure DocumentRules (activeVersion : Nat) (versions : List PolicyVersion) : Prop where
  active_pos : 1 ≤ activeVersion
  length_bounds : 1 ≤ versions.length ∧ versions.length ≤ 20
  unique : (versions.map (·.version)).Nodup
  one_active : (actives versions).map (·.version) = [activeVersion]
  highest : activeVersion = maxVersion versions

structure PolicyStoreDocument where
  activeVersion : Nat
  versions : List PolicyVersion
  integrity : DocumentRules activeVersion versions
  deriving DecidableEq

/-- The field constraints of `PolicyStoreDocument` and then its `_integrity` validator. -/
def integrityError (activeVersion : Nat) (versions : List PolicyVersion) :
    Option ValidationError :=
  if ¬(1 ≤ activeVersion) then some (.fields ["active_version"])
  else if ¬(1 ≤ versions.length ∧ versions.length ≤ 20) then some (.fields ["versions"])
  else if ¬(versions.map (·.version)).Nodup then
    some (.model "version numbers must be unique")
  else if (actives versions).length ≠ 1 then
    some (.model "exactly one version must have status='active'")
  else if (actives versions).map (·.version) ≠ [activeVersion] then
    some (.model "active_version must match the active record's version")
  else if activeVersion ≠ maxVersion versions then
    some (.model "active_version must be the highest version number")
  else none

/-- **The validator accepts exactly the documents the rules describe.** -/
theorem integrityError_eq_none {n : Nat} {versions : List PolicyVersion} :
    integrityError n versions = none ↔ DocumentRules n versions := by
  unfold integrityError
  constructor
  · intro h
    split_ifs at h with h1 h2 h3 h4 h5 h6
    exact ⟨h1, h2, h3, not_not.mp h5, not_not.mp h6⟩
  · rintro ⟨h1, h2, h3, h4, h5⟩
    have hlen : (actives versions).length = 1 := by simpa using congrArg List.length h4
    simp [h1, h2, h3, h4, hlen, ← h5]

/-- `PolicyStoreDocument(active_version=…, versions=…)` -/
def PolicyStoreDocument.validate (activeVersion : Nat) (versions : List PolicyVersion) :
    Except ValidationError PolicyStoreDocument :=
  match h : integrityError activeVersion versions with
  | none => .ok ⟨activeVersion, versions, integrityError_eq_none.mp h⟩
  | some e => .error e

theorem PolicyStoreDocument.validate_eq_ok {n : Nat} {versions : List PolicyVersion}
    (h : DocumentRules n versions) :
    PolicyStoreDocument.validate n versions = .ok ⟨n, versions, h⟩ := by
  unfold PolicyStoreDocument.validate
  split
  · rfl
  · rename_i e he
    rw [integrityError_eq_none.mpr h] at he
    cases he

/-! ## The active record of a document -/

theorem le_maxVersion {versions : List PolicyVersion} {v : PolicyVersion} (h : v ∈ versions) :
    v.version ≤ maxVersion versions := by
  induction versions with
  | nil => exact absurd h (by simp)
  | cons w ws ih =>
    simp only [maxVersion, List.map_cons, List.foldr_cons]
    rcases List.mem_cons.mp h with rfl | h
    · exact Nat.le_max_left _ _
    · exact Nat.le_trans (ih h) (Nat.le_max_right _ _)

theorem maxVersion_le {versions : List PolicyVersion} {n : Nat}
    (h : ∀ v ∈ versions, v.version ≤ n) : maxVersion versions ≤ n := by
  induction versions with
  | nil => exact Nat.zero_le n
  | cons w ws ih =>
    simp only [maxVersion, List.map_cons, List.foldr_cons]
    exact Nat.max_le.mpr ⟨h w List.mem_cons_self, ih fun v hv => h v (List.mem_cons_of_mem _ hv)⟩

namespace PolicyStoreDocument

variable (d : PolicyStoreDocument)

theorem le_active {v : PolicyVersion} (h : v ∈ d.versions) : v.version ≤ d.activeVersion :=
  d.integrity.highest ▸ le_maxVersion h

theorem eq_of_version_eq {v w : PolicyVersion} (hv : v ∈ d.versions) (hw : w ∈ d.versions)
    (h : v.version = w.version) : v = w :=
  List.inj_on_of_nodup_map d.integrity.unique hv hw h

/-- The records of the `active` property's list comprehension,
`[v for v in self.versions if v.version == self.active_version]`. -/
def activeMatches : List PolicyVersion := d.versions.filter (·.version = d.activeVersion)

/-- The list has exactly one element, so the property's `len(matches) != 1` never raises. -/
theorem activeMatches_eq : ∃ v, d.activeMatches = [v] ∧ v.status = .active := by
  obtain ⟨v, hv, hvn⟩ := List.map_eq_singleton_iff.mp d.integrity.one_active
  have hmem : v ∈ actives d.versions := hv ▸ List.mem_singleton_self v
  obtain ⟨hin, hst⟩ := List.mem_filter.mp hmem
  refine ⟨v, ?_, by simpa using hst⟩
  have hall : ∀ w ∈ d.activeMatches, w = v := fun w hw => by
    obtain ⟨hw, hn⟩ := List.mem_filter.mp hw
    exact d.eq_of_version_eq hw hin (by simpa [hvn] using hn)
  have hv' : v ∈ d.activeMatches := List.mem_filter.mpr ⟨hin, by simpa using hvn⟩
  have hnd : d.activeMatches.Nodup := (List.Nodup.of_map _ d.integrity.unique).filter _
  exact List.perm_singleton.mp ((List.perm_ext_iff_of_nodup hnd (List.nodup_singleton v)).mpr
    fun w => ⟨fun hw => List.mem_singleton.mpr (hall w hw),
      fun hw => List.mem_singleton.mp hw ▸ hv'⟩)

theorem activeMatches_ne_nil : d.activeMatches ≠ [] := by
  obtain ⟨v, hv, _⟩ := d.activeMatches_eq
  rw [hv]
  exact List.cons_ne_nil _ _

/-- The `active` property. -/
def active : PolicyVersion := d.activeMatches.head d.activeMatches_ne_nil

theorem active_mem : d.active ∈ d.versions :=
  List.mem_of_mem_filter (List.head_mem d.activeMatches_ne_nil)

theorem active_version : d.active.version = d.activeVersion := by
  have h := List.of_mem_filter (List.head_mem d.activeMatches_ne_nil)
  exact of_decide_eq_true h

/-- A record of the document is the active one when it has the active number. -/
theorem eq_active {v : PolicyVersion} (hv : v ∈ d.versions) (h : v.version = d.activeVersion) :
    v = d.active :=
  d.eq_of_version_eq hv d.active_mem (h.trans d.active_version.symm)

end PolicyStoreDocument

/-! ## What the active policy endpoint and the cache are given -/

/-- `ActivePolicyResponse` -/
structure ActivePolicyResponse where
  version : Nat
  schemaVersion : Nat
  publishedAt : Time
  policy : PolicyDraft
  deriving DecidableEq, Repr

end PolyGate.Automation
