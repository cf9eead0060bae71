import PolyGate.Automation.PolicyAdmin
import PolyGate.Lib.JsonPatch
import PolyGate.PolicyPreview

/-!
# `PolicyDiff.lean` — the difference of two policies

What an administrator approves is a list of changes, made once by the control plane (`_policy_diff`)
and once by the editor in the browser (`diffObjects`). Two valid policies have the same keys all the
way down, so both lists are the edits of `Lib/JsonPatch.lean`, with their places as paths.
-/

namespace PolyGate.PolicyDiff

open Lib Automation
open Lib.Ecma (Value stringify fieldsOfJson keys_fieldsOfJson get_fieldsOfJson newSet_append_self)
open PolicyPreview (Change changedKeys policyDiff)

/-! ## Policies have one shape -/

section Shape

/-- The fields of each object of a policy. -/
def objectFields : List (List String) :=
  [gatewayFields, ["quality", "privacy", "max_cost_usd", "latency_target_ms"],
   ["critical", "high", "normal", "low"],
   ["waiting_bonus_interval_seconds", "waiting_bonus_points", "waiting_bonus_cap",
    "starvation_streak_threshold", "starvation_wait_seconds"],
   ["weight", "defaults"],
   ["production_incident", "customer_escalation", "finance_summary", "marketing_batch"],
   ["urgency_scores", "scenarios", "queue"], draftFields]

/-- All field names are ASCII and lower case, so the orders of Python and JavaScript agree on them.
-/
theorem names_of_mem : ∀ fields ∈ objectFields, Names (fields.map str) := by decide +kernel

theorem alike_int {m n : Nat} (hm : m ≤ 2 ^ 53) (hn : n ≤ 2 ^ 53) :
    Alike (.int m) (.int n) := .leaf (.int hm hn)

theorem alike_float (p q : ℚ) : Alike (.float (.ofRat p)) (.float (.ofRat q)) := .leaf (.float p q)

theorem alike_text (s t : String) : Alike (.str (str s)) (.str (str t)) := .leaf (.text s t)

theorem alike_mode (m m' : Mode) : Alike m.json m'.json := by
  cases m <;> cases m' <;> exact alike_text _ _

theorem alike_strategy (s s' : HighQualityStrategy) : Alike s.json s'.json := by
  cases s <;> cases s' <;> exact alike_text _ _

theorem alike_quality (q q' : Quality) : Alike q.json q'.json := by
  cases q <;> cases q' <;> exact alike_text _ _

theorem alike_privacy (p p' : Privacy) : Alike p.json p'.json := by
  cases p <;> cases p' <;> exact alike_text _ _

/-- Two documents of one schema have the same shape, section by section. -/
theorem alike_gateway (p q : GatewayPolicy) : Alike p.json q.json := by
  obtain ⟨-, hp⟩ := p.assumedOutputTokens_bounds
  obtain ⟨-, hq⟩ := q.assumedOutputTokens_bounds
  apply alike_obj
    [("assumed_output_tokens", .int p.assumedOutputTokens, .int q.assumedOutputTokens),
     ("balanced_price_tolerance", .float (.ofRat p.balancedPriceTolerance),
       .float (.ofRat q.balancedPriceTolerance)),
     ("budget_mode", p.budgetMode.json, q.budgetMode.json),
     ("latency_mode", p.latencyMode.json, q.latencyMode.json),
     ("high_quality_strategy", p.highQualityStrategy.json, q.highQualityStrategy.json)]
  · exact names_of_mem _ (by simp [objectFields, gatewayFields, draftFields])
  · simp only [List.forall_mem_cons]
    exact ⟨alike_int (hp.trans (by decide)) (hq.trans (by decide)), alike_float _ _,
      alike_mode _ _, alike_mode _ _, alike_strategy _ _, List.forall_mem_nil _⟩

theorem alike_preferences (p q : Preferences) : Alike p.json q.json := by
  obtain ⟨-, hp⟩ := p.latencyTargetMs_bounds
  obtain ⟨-, hq⟩ := q.latencyTargetMs_bounds
  apply alike_obj
    [("quality", p.quality.json, q.quality.json), ("privacy", p.privacy.json, q.privacy.json),
     ("max_cost_usd", .float (.ofRat p.maxCostUsd), .float (.ofRat q.maxCostUsd)),
     ("latency_target_ms", .int p.latencyTargetMs, .int q.latencyTargetMs)]
  · exact names_of_mem _ (by simp [objectFields, gatewayFields, draftFields])
  · simp only [List.forall_mem_cons]
    exact ⟨alike_quality _ _, alike_privacy _ _, alike_float _ _,
      alike_int (hp.trans (by decide)) (hq.trans (by decide)), List.forall_mem_nil _⟩

/-- The bounds of the schema keep integers exact in JavaScript. -/
theorem urgency_le (u : UrgencyScores) :
    u.critical ≤ 2 ^ 53 ∧ u.high ≤ 2 ^ 53 ∧ u.normal ≤ 2 ^ 53 ∧ u.low ≤ 2 ^ 53 := by
  have hle := u.critical_le
  have hordered := u.ordered
  omega

theorem alike_urgency (u v : UrgencyScores) : Alike u.json v.json := by
  obtain ⟨hu1, hu2, hu3, hu4⟩ := urgency_le u
  obtain ⟨hv1, hv2, hv3, hv4⟩ := urgency_le v
  apply alike_obj
    [("critical", .int u.critical, .int v.critical), ("high", .int u.high, .int v.high),
     ("normal", .int u.normal, .int v.normal), ("low", .int u.low, .int v.low)]
  · exact names_of_mem _ (by simp [objectFields, gatewayFields, draftFields])
  · simp only [List.forall_mem_cons]
    exact ⟨alike_int hu1 hv1, alike_int hu2 hv2, alike_int hu3 hv3, alike_int hu4 hv4,
      List.forall_mem_nil _⟩

theorem queue_le (q : QueuePolicy) :
    q.waitingBonusIntervalSeconds ≤ 2 ^ 53 ∧ q.waitingBonusPoints ≤ 2 ^ 53 ∧
    q.waitingBonusCap ≤ 2 ^ 53 ∧ q.starvationStreakThreshold ≤ 2 ^ 53 ∧
    q.starvationWaitSeconds ≤ 2 ^ 53 := by
  have h1 := q.interval_bounds
  have h2 := q.points_le
  have h3 := q.cap_le
  have h4 := q.threshold_bounds
  have h5 := q.wait_bounds
  omega

theorem alike_queue (p q : QueuePolicy) : Alike p.json q.json := by
  obtain ⟨hp1, hp2, hp3, hp4, hp5⟩ := queue_le p
  obtain ⟨hq1, hq2, hq3, hq4, hq5⟩ := queue_le q
  apply alike_obj
    [("waiting_bonus_interval_seconds", .int p.waitingBonusIntervalSeconds,
       .int q.waitingBonusIntervalSeconds),
     ("waiting_bonus_points", .int p.waitingBonusPoints, .int q.waitingBonusPoints),
     ("waiting_bonus_cap", .int p.waitingBonusCap, .int q.waitingBonusCap),
     ("starvation_streak_threshold", .int p.starvationStreakThreshold,
       .int q.starvationStreakThreshold),
     ("starvation_wait_seconds", .int p.starvationWaitSeconds, .int q.starvationWaitSeconds)]
  · exact names_of_mem _ (by simp [objectFields, gatewayFields, draftFields])
  · simp only [List.forall_mem_cons]
    exact ⟨alike_int hp1 hq1, alike_int hp2 hq2, alike_int hp3 hq3, alike_int hp4 hq4,
      alike_int hp5 hq5, List.forall_mem_nil _⟩

theorem alike_scenario (s t : ScenarioPolicy) : Alike s.json t.json := by
  have hs := s.weight_le
  have ht := t.weight_le
  apply alike_obj
    [("weight", .int s.weight, .int t.weight), ("defaults", s.defaults.json, t.defaults.json)]
  · exact names_of_mem _ (by simp [objectFields, gatewayFields, draftFields])
  · simp only [List.forall_mem_cons]
    exact ⟨alike_int (hs.trans (by decide)) (ht.trans (by decide)), alike_preferences _ _,
      List.forall_mem_nil _⟩

theorem alike_scenarios (s t : Scenarios) : Alike s.json t.json := by
  apply alike_obj
    [("production_incident", s.productionIncident.json, t.productionIncident.json),
     ("customer_escalation", s.customerEscalation.json, t.customerEscalation.json),
     ("finance_summary", s.financeSummary.json, t.financeSummary.json),
     ("marketing_batch", s.marketingBatch.json, t.marketingBatch.json)]
  · exact names_of_mem _ (by simp [objectFields, gatewayFields, draftFields])
  · simp only [List.forall_mem_cons]
    exact ⟨alike_scenario _ _, alike_scenario _ _, alike_scenario _ _, alike_scenario _ _,
      List.forall_mem_nil _⟩

/-- So two policies differ in their leaves only. -/
theorem alike_automation (a b : AutomationPolicy) : Alike a.json b.json := by
  apply alike_obj
    [("urgency_scores", a.urgencyScores.json, b.urgencyScores.json),
     ("scenarios", a.scenarios.json, b.scenarios.json), ("queue", a.queue.json, b.queue.json)]
  · exact names_of_mem _ (by simp [objectFields, gatewayFields, draftFields])
  · simp only [List.forall_mem_cons]
    exact ⟨alike_urgency _ _, alike_scenarios _ _, alike_queue _ _, List.forall_mem_nil _⟩

/-- Two valid policies have the same keys all the way down. -/
theorem alike_draft (a b : PolicyDraft) : Alike a.json b.json := by
  apply alike_obj
    [("schema_version", .int a.schemaVersion, .int b.schemaVersion),
     ("gateway", a.gateway.json, b.gateway.json),
     ("automation", a.automation.json, b.automation.json)]
  · exact names_of_mem _ (by simp [objectFields, gatewayFields, draftFields])
  · simp only [List.forall_mem_cons]
    exact ⟨alike_int (m := 1) (n := 1) (by decide) (by decide), alike_gateway _ _,
      alike_automation _ _, List.forall_mem_nil _⟩

end Shape

/-! ## The control plane -/

section Keys
variable {d d' : Obj}

/-- Changed keys are the keys of both documents, in another order. -/
theorem changedKeys_perm (names : Names (d.map (·.1))) (keys : d'.map (·.1) = d.map (·.1)) :
    (changedKeys d d').Perm (d.map (·.1)) := by
  unfold changedKeys
  refine (List.mergeSort_perm _ _).trans ?_
  apply (List.perm_ext_iff_of_nodup (List.nodup_dedup _) names.nodup).mpr
  intro k
  rw [List.mem_dedup, List.mem_append, keys, or_self]

theorem lists_changedKeys : Lists changedKeys := fun _ _ => changedKeys_perm

theorem changedKeys_pairwise (d d' : Obj) : (changedKeys d d').Pairwise (· ≤ ·) := by
  unfold changedKeys
  refine (List.pairwise_mergeSort ?_ ?_ _).imp fun h => of_decide_eq_true h
  · intro a b c hab hbc
    exact decide_eq_true (le_trans (of_decide_eq_true hab) (of_decide_eq_true hbc))
  · intro a b
    simpa using le_total a b

end Keys

/-- The key that a path is extended by. -/
theorem dotted_extend {ks : List PyStr} (hks : ∀ k ∈ ks, k ≠ []) (k : PyStr) :
    (if dotted ks = [] then k else dotted ks ++ str "." ++ k) = dotted (ks ++ [k]) := by
  rw [dotted_concat]
  cases ks with
  | nil => rfl
  | cons k' ks =>
    have hne : dotted (k' :: ks) ≠ [] := by
      intro hnil
      have hprefix := prefix_dotted k' ks
      rw [hnil, List.prefix_nil] at hprefix
      exact hks k' List.mem_cons_self hprefix
    rw [if_neg hne, if_neg (List.cons_ne_nil _ _), List.append_assoc]
    rfl

/-- An edit, as the control plane reports it. -/
def changeOf (ks : List PyStr) (e : Edit) : Change := ⟨dotted (ks ++ e.keys), e.before, e.after⟩

/-- At a leaf there is one entry or none. -/
theorem leaf_policyDiff_eq {v w : Json} (h : Leaf v w) (path : PyStr) :
    policyDiff v w path = if v.eq w then [] else [⟨path, v, w⟩] := by
  cases h <;> rw [policyDiff] <;> simp

/-- `_policy_diff` reports the edits. -/
theorem policyDiff_eq {v w : Json} (h : Alike v w) {ks : List PyStr} (hks : ∀ k ∈ ks, k ≠ []) :
    policyDiff v w (dotted ks) = (edits changedKeys v w).map (changeOf ks) := by
  induction h generalizing ks with
  | leaf h =>
    rw [leaf_policyDiff_eq h, h.edits_eq]
    split
    · rfl
    · rw [List.map_singleton, changeOf, List.append_nil]
  | @obj d d' names keys fields ih =>
    rw [policyDiff, edits, List.map_flatMap]
    refine List.flatMap_congr fun k hk => ?_
    have hmem := (changedKeys_perm names keys).mem_iff.mp hk
    have hword := isWord_iff.mp (names.word k hmem)
    have hks' : ∀ k' ∈ ks ++ [k], k' ≠ [] :=
      List.forall_mem_append.mpr ⟨hks, List.forall_mem_singleton.mpr hword.1⟩
    rw [dotted_extend hks]
    refine (ih k hmem hks').trans ?_
    rw [List.map_map]
    refine List.map_congr_left fun e _ => ?_
    simp only [Function.comp_apply, changeOf, Edit.under, List.append_assoc, List.singleton_append]

/-! ## The editor -/

section Editor

/-- A change of the control plane, as the editor has it. -/
def editorChange (c : Change) : EditorChange := ⟨c.path, .ofJson c.before, .ofJson c.after⟩

/-- The editor compares leaves by their JSON text, which tells them apart. -/
theorem leaf_stringify_iff {v w : Json} (h : Leaf v w) :
    stringify (.ofJson v) = stringify (.ofJson w) ↔ v = w := by
  refine ⟨fun heq => ?_, fun heq => heq ▸ rfl⟩
  cases h with
  | @int m n hm hn =>
    simp only [Value.ofJson, Ecma.ofInt, if_pos hm, if_pos hn, stringify] at heq
    have hchars := codePoint_injective.list_map (Option.some.inj heq)
    rw [show m = n from by exact_mod_cast Ecma.numberText_ofRat_inj.mp hchars]
  | float p q =>
    have hchars := codePoint_injective.list_map (Option.some.inj heq)
    rw [Ecma.numberText_ofRat_inj.mp hchars]
  | text s t =>
    have hquote : Ecma.quote (str s) = Ecma.quote (str t) := Option.some.inj heq
    rw [Ecma.quote_str, Ecma.quote_str] at hquote
    rw [(quote_inj (congrArg (· ++ []) hquote)).1]

theorem leaf_clone_eq {v w : Json} (h : Leaf v w) :
    clone (.ofJson v) = .ofJson v ∧ clone (.ofJson w) = .ofJson w := by
  cases h with
  | int hm hn =>
    simp only [Value.ofJson, Ecma.ofInt, if_pos hm, if_pos hn]
    exact ⟨Ecma.throughJson_ofRat _, Ecma.throughJson_ofRat _⟩
  | float p q => exact ⟨Ecma.throughJson_ofRat p, Ecma.throughJson_ofRat q⟩
  | text s t => exact ⟨rfl, rfl⟩

/-- At a leaf the editor lists the same entry. -/
theorem leaf_diffObjects_eq {v w : Json} (h : Leaf v w) (path : PyStr) :
    diffObjects (.ofJson v) (.ofJson w) path =
      if v.eq w then [] else [⟨path, .ofJson v, .ofJson w⟩] := by
  have hleaf : ∀ fields, Value.ofJson v ≠ .object fields := by
    intro fields
    cases h <;> simp [Value.ofJson]
  rw [diffObjects_leaf hleaf, (leaf_clone_eq h).1, (leaf_clone_eq h).2, ite_not]
  by_cases heq : v = w
  · rw [if_pos ((leaf_stringify_iff h).mpr heq), if_pos (h.eq_iff.mpr heq)]
  · rw [if_neg (mt (leaf_stringify_iff h).mp heq), if_neg (mt h.eq_iff.mp heq)]

/-- Both take the keys in one order. -/
theorem editorKeys_eq {d d' : Obj} (names : Names (d.map (·.1)))
    (keys : d'.map (·.1) = d.map (·.1)) :
    editorKeys (fieldsOfJson d) (fieldsOfJson d') = changedKeys d d' := by
  have hperm : (editorKeys (fieldsOfJson d) (fieldsOfJson d')).Perm (d.map (·.1)) := by
    unfold editorKeys
    rw [keys_fieldsOfJson, keys_fieldsOfJson, keys, newSet_append_self names.nodup]
    exact Ecma.sort_perm _
  have hsorted : (editorKeys (fieldsOfJson d) (fieldsOfJson d')).Pairwise (· ≤ ·) := by
    refine (Ecma.sort_pairwise _).imp_of_mem fun {s t} hs ht hle => ?_
    have hascii {k : PyStr} (hk : k ∈ editorKeys (fieldsOfJson d) (fieldsOfJson d')) :
        ∀ p ∈ k, p.val < 0x80 := (isWord_iff.mp (names.word k (hperm.mem_iff.mp hk))).2.1
    exact (Ecma.utf16_le_iff (hascii hs) (hascii ht)).mp hle
  refine (hperm.trans (changedKeys_perm names keys).symm).eq_of_pairwise ?_ hsorted
    (changedKeys_pairwise d d')
  intro s t _ _ hst hts
  exact le_antisymm hst hts

/-- `diffObjects` returns what `_policy_diff` does. -/
theorem diffObjects_eq {v w : Json} (h : Alike v w) (path : PyStr) :
    diffObjects (.ofJson v) (.ofJson w) path = (policyDiff v w path).map editorChange := by
  induction h generalizing path with
  | leaf h =>
    rw [leaf_diffObjects_eq h, leaf_policyDiff_eq h]
    split
    · rfl
    · rfl
  | @obj d d' names keys fields ih =>
    rw [Value.ofJson, Value.ofJson, diffObjects, policyDiff, List.map_flatMap,
      editorKeys_eq names keys]
    refine List.flatMap_congr fun k hk => ?_
    have hmem := (changedKeys_perm names keys).mem_iff.mp hk
    rw [get_fieldsOfJson (lookup_child hmem), get_fieldsOfJson (lookup_child (keys.symm ▸ hmem))]
    exact ih k hmem _

end Editor

/-! ## Two policies -/

section Policies
variable (a b : PolicyDraft)

theorem json_injective : Function.Injective PolicyDraft.json := by
  intro a b h
  have hread := readPolicyDraft_json a
  rw [h, readPolicyDraft_json b] at hread
  exact (Option.some.inj hread).symm

/-- The changes are the edits, with their places as paths. -/
theorem changes_eq :
    policyDiff a.json b.json [] = (edits changedKeys a.json b.json).map (changeOf []) :=
  policyDiff_eq (alike_draft a b) (List.forall_mem_nil _)

/-- The path of a change leads to where the edit is. -/
theorem splitPath_change {e : Edit} (he : e ∈ edits changedKeys a.json b.json) :
    splitPath (changeOf [] e).path = e.keys := by
  have hwords := keys_edits lists_changedKeys (alike_draft a b) e he
  have hne : e.keys ≠ [] := by
    rw [PolicyDraft.json, PolicyDraft.json, edits, List.mem_flatMap] at he
    obtain ⟨k, -, he⟩ := he
    obtain ⟨e', -, rfl⟩ := List.mem_map.mp he
    exact List.cons_ne_nil _ _
  exact splitPath_dotted hne fun k hk => (isWord_iff.mp (hwords k hk)).2.2

/-- **The difference of two policies is a patch from the one to the other, and the editor shows the
same one**: no two changes are at one place or one inside of the other. -/
theorem diff_is_patch :
    (policyDiff a.json b.json []).foldlM (fun v c => setPath v c.path c.after) a.json =
      some b.json ∧
    (∀ c ∈ policyDiff a.json b.json [], getPath a.json c.path = some c.before) ∧
    (policyDiff a.json b.json []).Pairwise (fun c c' => Apart c.path c'.path) ∧
    (policyDiff a.json b.json [] = [] ↔ a = b) ∧
    diffObjects (.ofJson a.json) (.ofJson b.json) [] =
      (policyDiff a.json b.json []).map editorChange := by
  have halike := alike_draft a b
  refine ⟨?_, ?_, ?_, ?_, diffObjects_eq halike []⟩
  · have hset : ∀ es : List Edit, (∀ e ∈ es, e ∈ edits changedKeys a.json b.json) → ∀ v,
        (es.map (changeOf [])).foldlM (fun v c => setPath v c.path c.after) v =
          Edit.applyAll v es := by
      intro es
      induction es with
      | nil => exact fun _ _ => rfl
      | cons e es ih =>
        intro hes v
        rw [List.forall_mem_cons] at hes
        rw [List.map_cons, List.foldlM_cons, setPath, splitPath_change a b hes.1]
        exact congrArg _ (funext fun v => ih hes.2 v)
    rw [changes_eq, hset _ fun _ => id]
    exact applyAll_edits lists_changedKeys halike
  · rw [changes_eq]
    refine List.forall_mem_map.mpr fun e he => ?_
    rw [getPath, splitPath_change a b he]
    exact (getAt_edits lists_changedKeys halike e he).1
  · rw [changes_eq, List.pairwise_map]
    exact apart_edits lists_changedKeys halike
  · rw [changes_eq, List.map_eq_nil_iff, edits_eq_nil_iff lists_changedKeys halike]
    exact json_injective.eq_iff

end Policies

end PolyGate.PolicyDiff
