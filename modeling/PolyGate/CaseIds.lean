import PolyGate.Lib.Cut
import PolyGate.Lib.PyRepr
import PolyGate.PolicyPreview

/-!
# `CaseIds.lean` — the ids of the cases in a preview

An id is the slug of its case, with the occurrence behind it from the second on. No slug ends in a
digit and no number has a dash, so slug and occurrence can be read off an id, and no two cases share
one (`preview_case_ids`).
-/

namespace PolyGate.CaseIds

open Lib
open Automation
open PolicyPreview (caseIds previewPriority routingSimulations scenarioSlug score sortedByScore
  urgencyValue)

/-! ## Ids and slugs -/

/-- The id of the `n`-th case with a slug. -/
def caseId (slug : String) (n : Nat) : String :=
  if n = 1 then slug else slug ++ "-" ++ toString n

/-- A slug does not end like a number. -/
def Wordy (slug : String) : Prop := ∃ cs c, slug.toList = cs ++ [c] ∧ c.isDigit = false

theorem toList_caseId {slug : String} {n : Nat} (h : n ≠ 1) :
    (caseId slug n).toList = slug.toList ++ '-' :: Nat.toDigits 10 n := by
  rw [caseId, if_neg h, String.toList_append, String.toList_append]
  show slug.toList ++ "-".toList ++ n.repr.toList = _
  rw [Nat.toList_repr, List.append_assoc]
  rfl

/-- An id with a number is no slug. -/
theorem caseId_ne {slug slug' : String} {n : Nat} (hslug' : Wordy slug') (h : n ≠ 1) :
    caseId slug n ≠ slug' := by
  intro heq
  obtain ⟨cs, c, hlast, hc⟩ := hslug'
  rw [← heq, toList_caseId h] at hlast
  have hne : Nat.toDigits 10 n ≠ [] := Nat.toDigits_ne_nil
  rw [← List.dropLast_append_getLast hne, ← List.cons_append, ← List.append_assoc] at hlast
  obtain ⟨-, hsame⟩ := List.append_inj' hlast rfl
  have hdigit := digits_toDigits n _ (List.getLast_mem hne)
  rw [List.singleton_inj.mp hsame, hc] at hdigit
  cases hdigit

/-- A slug and a number can be read off an id. -/
theorem caseId_inj {slug slug' : String} {n n' : Nat} (hslug : Wordy slug) (hslug' : Wordy slug')
    (h : caseId slug n = caseId slug' n') : slug = slug' ∧ n = n' := by
  by_cases hn : n = 1
  · by_cases hn' : n' = 1
    · rw [hn, hn'] at h
      exact ⟨h, hn.trans hn'.symm⟩
    · rw [hn] at h
      exact absurd h.symm (caseId_ne hslug hn')
  · by_cases hn' : n' = 1
    · rw [hn'] at h
      exact absurd h (caseId_ne hslug' hn)
    · have hdash (m : Nat) : '-' ∉ Nat.toDigits 10 m := (digits_toDigits m).notMem rfl
      have hlist := congrArg String.toList h
      rw [toList_caseId hn, toList_caseId hn'] at hlist
      obtain ⟨hslugs, hdigits⟩ := cut_last (hdash n) (hdash n') hlist
      refine ⟨String.ext hslugs, ?_⟩
      rw [← readDigits_toDigits n, hdigits, readDigits_toDigits]

/-- What the ids are, from the counts so far. -/
theorem exists_of_mem_caseIds {slugs : List String} {slugCounts : String → Nat} {id : String}
    (h : id ∈ caseIds slugs slugCounts) :
    ∃ slug ∈ slugs, ∃ n, slugCounts slug < n ∧ id = caseId slug n := by
  induction slugs generalizing slugCounts with
  | nil => cases h
  | cons slug slugs ih =>
    rcases List.mem_cons.mp h with rfl | h
    · exact ⟨slug, List.mem_cons_self, slugCounts slug + 1, Nat.lt_succ_self _, rfl⟩
    · obtain ⟨slug', hslug', n, hn, rfl⟩ := ih h
      refine ⟨slug', List.mem_cons_of_mem _ hslug', n, ?_, rfl⟩
      by_cases hsame : slug' = slug
      · subst hsame
        rw [Function.update_self] at hn
        exact Nat.lt_of_succ_lt hn
      · rwa [Function.update_of_ne hsame] at hn

/-- No two cases have one id. -/
theorem nodup_caseIds {slugs : List String} (h : ∀ slug ∈ slugs, Wordy slug)
    (slugCounts : String → Nat) : (caseIds slugs slugCounts).Nodup := by
  induction slugs generalizing slugCounts with
  | nil => exact .nil
  | cons slug slugs ih =>
    obtain ⟨hslug, hslugs⟩ := List.forall_mem_cons.mp h
    refine List.nodup_cons.mpr ⟨fun hmem => ?_, ih hslugs _⟩
    obtain ⟨slug', hslug', n, hn, heq⟩ := exists_of_mem_caseIds hmem
    obtain ⟨rfl, rfl⟩ := caseId_inj hslug (hslugs slug' hslug') heq
    rw [Function.update_self] at hn
    exact Nat.lt_irrefl _ hn

/-! ## The two slugs -/

/-- The slug of an intent, as `preview_priority` makes it. -/
def slugOf (intent : AutomationIntent) : String :=
  urgencyValue intent.urgency ++ "-" ++ scenarioSlug intent.scenario

theorem wordy_scenarioSlug (scenario : Scenario) : Wordy (scenarioSlug scenario) := by
  cases scenario with
  | productionIncident => exact ⟨"production-inciden".toList, 't', by decide +kernel, rfl⟩
  | customerEscalation => exact ⟨"customer-escalatio".toList, 'n', by decide +kernel, rfl⟩
  | financeSummary => exact ⟨"finance-summar".toList, 'y', by decide +kernel, rfl⟩
  | marketingBatch => exact ⟨"marketing-batc".toList, 'h', by decide +kernel, rfl⟩

theorem wordy_slugOf (intent : AutomationIntent) : Wordy (slugOf intent) := by
  obtain ⟨cs, c, hlast, hc⟩ := wordy_scenarioSlug intent.scenario
  refine ⟨(urgencyValue intent.urgency ++ "-").toList ++ cs, c, ?_, hc⟩
  rw [slugOf, String.toList_append, hlast, List.append_assoc]

theorem wordy_preference (quality : Gateway.Quality) (privacy : Gateway.Privacy) :
    Wordy (quality.value ++ "-" ++ privacy.value) := by
  have hprivacy : Wordy privacy.value := by
    cases privacy with
    | standard => exact ⟨"standar".toList, 'd', by decide +kernel, rfl⟩
    | high => exact ⟨"hig".toList, 'h', by decide +kernel, rfl⟩
  obtain ⟨cs, c, hlast, hc⟩ := hprivacy
  refine ⟨(quality.value ++ "-").toList ++ cs, c, ?_, hc⟩
  rw [String.toList_append, hlast, List.append_assoc]

/-! ## The entries of a preview -/

section Preview

variable (draft active : PolicyDraft) (intents : List AutomationIntent)

theorem length_caseIds : (caseIds (intents.map slugOf) fun _ => 0).length = intents.length := by
  rw [PolicyPreview.length_caseIds, List.length_map]

/-- An intent and its id make an entry. -/
theorem previewPriority_eq : previewPriority draft intents active =
    ((caseIds (intents.map slugOf) fun _ => 0).zip intents).map
      fun e => ⟨e.1, score active e.2, score draft e.2⟩ := by
  rw [List.map_zip_eq_zipWith]
  rfl

theorem map_caseId : (previewPriority draft intents active).map (·.caseId) =
    caseIds (intents.map slugOf) fun _ => 0 := by
  rw [previewPriority_eq, List.map_map]
  exact List.map_fst_zip (length_caseIds intents).le

theorem map_afterScore : (previewPriority draft intents active).map (·.afterScore) =
    intents.map (score draft) := by
  rw [previewPriority_eq, List.map_map]
  show List.map (score draft ∘ Prod.snd) _ = _
  rw [← List.map_map, List.map_snd_zip (length_caseIds intents).ge]

theorem nodup_caseId : ((previewPriority draft intents active).map (·.caseId)).Nodup := by
  rw [map_caseId]
  refine nodup_caseIds (fun slug hslug => ?_) _
  obtain ⟨intent, -, rfl⟩ := List.mem_map.mp hslug
  exact wordy_slugOf intent

theorem zipWith_left_sublist {α β : Type} (l : List α) (l' : List β) :
    (List.zipWith (fun a _ => a) l l').Sublist l := by
  induction l generalizing l' with
  | nil => exact .slnil
  | cons a l ih =>
    cases l' with
    | nil => exact List.nil_sublist _
    | cons b l' => exact (ih l').cons_cons a

theorem nodup_routing (cases : List PolicyPreview.GatewaySimulationRequest)
    (before after : List Obj) :
    ((routingSimulations cases before after).map (·.caseId)).Nodup := by
  unfold routingSimulations
  rw [List.map_zipWith]
  refine (nodup_caseIds (fun slug hslug => ?_) fun _ => 0).sublist (zipWith_left_sublist _ _)
  obtain ⟨e, -, rfl⟩ := List.mem_map.mp hslug
  exact wordy_preference e.1.polygate.quality e.1.polygate.privacy

/-- What a preview that succeeds says. -/
theorem content_of_emits {version : PolicyVersion} {request : PolicyPreview.PolicyPreviewRequest}
    {es : List PolicyPreview.Event} {content : PolicyPreview.PreviewContent}
    (h : Prog.Emits (PolicyPreview.previewPolicy version request) es (.ok content)) :
    content.priority = previewPriority request.policy request.priorityCases version.policy ∧
    content.beforeOrder = (sortedByScore (·.beforeScore) content.priority).map (·.caseId) ∧
    content.afterOrder = (sortedByScore (·.afterScore) content.priority).map (·.caseId) ∧
    ∃ before after, content.routing = routingSimulations request.gatewayCases before after := by
  unfold PolicyPreview.previewPolicy at h
  rcases Prog.emits_bind.mp h with ⟨es₁, es₂, before, rfl, -, h⟩ | ⟨e, -, heq⟩
  · rcases Prog.emits_bind.mp h with ⟨es₃, es₄, after, rfl, -, h⟩ | ⟨e, -, heq⟩
    · cases (Prog.emits_ret.mp h).2
      exact ⟨rfl, rfl, rfl, before, after, rfl⟩
    · cases heq
  · cases heq

/-- **No two cases of a preview share an id**, and both orders are of the ids of the priority
cases. -/
theorem preview_case_ids {version : PolicyVersion} {request : PolicyPreview.PolicyPreviewRequest}
    {es : List PolicyPreview.Event} {content : PolicyPreview.PreviewContent}
    (hrun : Prog.Emits (PolicyPreview.previewPolicy version request) es (.ok content)) :
    (content.routing.map (·.caseId)).Nodup ∧ (content.priority.map (·.caseId)).Nodup ∧
    content.beforeOrder.Perm (content.priority.map (·.caseId)) ∧
    content.afterOrder.Perm (content.priority.map (·.caseId)) := by
  obtain ⟨hpriority, hbefore, hafter, before, after, hrouting⟩ := content_of_emits hrun
  refine ⟨?_, ?_, ?_, ?_⟩
  · rw [hrouting]
    exact nodup_routing request.gatewayCases before after
  · rw [hpriority]
    exact nodup_caseId request.policy version.policy request.priorityCases
  · rw [hbefore]
    exact (List.mergeSort_perm _ _).map _
  · rw [hafter]
    exact (List.mergeSort_perm _ _).map _

/-- Each case comes twice. -/
def doubled : PolicyPreview.PolicyPreviewRequest :=
  let intent := (makePreview "preview_a" .critical 140).normalizedIntent
  ⟨exampleDraft, [PolicyPreview.freeCase, PolicyPreview.freeCase], [intent, intent]⟩

theorem preview_case_ids_doubled : ∃ es content,
    Prog.Emits (PolicyPreview.previewPolicy seedRecord doubled) es (.ok content) ∧
    content.routing.map (·.caseId) = ["balanced-standard", "balanced-standard-2"] ∧
    content.afterOrder.Perm
      ["critical-production-incident", "critical-production-incident-2"] := by
  have hrun : ∃ es content,
      Prog.Emits (PolicyPreview.previewPolicy seedRecord doubled) es (.ok content) ∧
      content.routing.map (·.caseId) = ["balanced-standard", "balanced-standard-2"] ∧
      content.priority.map (·.caseId) =
        ["critical-production-incident", "critical-production-incident-2"] := by
    let answer (draft : PolicyDraft) : PolicyPreview.Event :=
      ⟨.post ⟨PolicyPreview.sent PolicyPreview.freeCase, draft.gateway⟩,
        .response 200 (.json (.obj []))⟩
    refine ⟨[answer seedRecord.policy, answer seedRecord.policy, answer exampleDraft,
      answer exampleDraft], _, ⟨_, _, rfl, _, _, rfl, _, _, rfl, _, _, rfl, rfl, rfl⟩, ?_, ?_⟩
    · decide +kernel
    · decide +kernel
  obtain ⟨es, content, hrun, hrouting, hpriority⟩ := hrun
  have hperm := (preview_case_ids hrun).2.2.2
  rw [hpriority] at hperm
  exact ⟨es, content, hrun, hrouting, hperm⟩

end Preview

end PolyGate.CaseIds
