import PolyGate.Gateway.Failover
import PolyGate.Gateway.Registry

/-!
# `Gateway/Guardrails.lean` — the guardrails of forced and of automatic routing

The privacy rule is written twice: `_forced_provider` of `gateway/app/main.py` forbids an entry that
is external, `select_provider` keeps an entry that is internal. Here both are asked of entries as
they are loaded, where `privacy` may hold anything or be missing. For a typed entry they are the
functions that `Gateway/Failover.lean` and `Gateway/Router.lean` work with.
-/

namespace PolyGate.Gateway.Guardrails

open Lib

/-! ## The two rules -/

/-- What forcing a provider raises. -/
inductive ForcedExc
  | httpException (status : Nat) (detail : Failover.Detail)
  | shape (e : ShapeError)

/-- `_forced_provider` -/
def forcedEntry (entries : List Entry) (req : GatewayRequest) (required : List String) :
    Except ForcedExc (Option Entry) :=
  if req.model = "auto" then .ok none
  else
    match entries.find? fun e => e.name = req.model with
    | none => .error (.httpException 400 (.unknownProvider req.model))
    | some forced =>
      if req.polygate.privacy = .high ∧ fieldIs "external" (forced.get? "privacy") then
        .error (.httpException 403 (.externalForbidden forced.name))
      else do
        let missing ← (forced.missingCapabilities required).mapError .shape
        if missing ≠ [] then
          throw (.httpException 400 (.missingCapabilities forced.name (sortedCapabilities missing)))
        else return some forced

/-- The first two filters of `select_provider`, for one entry of the pool. -/
def keeps (e : Entry) (privacy : Privacy) (required : List String) : Except ShapeError Bool :=
  if privacy = .high ∧ !fieldIs "internal" (e.get? "privacy") then .ok false
  else if required ≠ [] then do
    let missing ← e.missingCapabilities required
    return missing.isEmpty
  else .ok true

section
variable {entries : List Entry} {p : Entry} {req : GatewayRequest} {privacy : Privacy}
  {required : List String}

theorem keeps_iff : keeps p privacy required = .ok true ↔
    (privacy = .high → fieldIs "internal" (p.get? "privacy") = true) ∧
      p.missingCapabilities required = .ok [] := by
  unfold keeps
  by_cases hprivacy : privacy = .high ∧ (!fieldIs "internal" (p.get? "privacy")) = true
  · rw [if_pos hprivacy]
    obtain ⟨hhigh, hother⟩ := hprivacy
    refine ⟨fun h => absurd h (by simp), fun h => ?_⟩
    rw [h.1 hhigh] at hother
    cases hother
  · rw [if_neg hprivacy, and_iff_right (by simpa using hprivacy)]
    by_cases hrequired : required = []
    · simp [hrequired, Entry.missingCapabilities]
    · rw [if_pos hrequired]
      constructor
      · intro h
        obtain ⟨missing, hmissing, h⟩ := bind_eq_ok.mp h
        rw [hmissing, List.isEmpty_iff.mp (Except.ok.inj h)]
      · intro h
        rw [h]
        rfl

theorem find?_unique (hp : p ∈ entries) (hunique : ∀ q ∈ entries, q.name = p.name → q = p) :
    (entries.find? fun e => e.name = p.name) = some p := by
  cases hfind : entries.find? fun e => e.name = p.name with
  | none => exact absurd (decide_eq_true rfl) (List.find?_eq_none.mp hfind p hp)
  | some q =>
    rw [hunique q (List.mem_of_find?_eq_some hfind) (by simpa using List.find?_some hfind)]

theorem forcedEntry_iff (hp : p ∈ entries) (hunique : ∀ q ∈ entries, q.name = p.name → q = p)
    (hmodel : req.model = p.name) : forcedEntry entries req required = .ok (some p) ↔
      p.name ≠ "auto" ∧
      (req.polygate.privacy = .high → fieldIs "external" (p.get? "privacy") = false) ∧
      p.missingCapabilities required = .ok [] := by
  unfold forcedEntry
  rw [hmodel, find?_unique hp hunique]
  by_cases hauto : p.name = "auto"
  · simp [hauto]
  · rw [if_neg hauto, and_iff_right hauto]
    dsimp only
    by_cases hprivacy : req.polygate.privacy = .high ∧ fieldIs "external" (p.get? "privacy") = true
    · rw [if_pos hprivacy]
      refine ⟨fun h => absurd h (by simp), fun h => ?_⟩
      rw [h.1 hprivacy.1] at hprivacy
      cases hprivacy.2
    · rw [if_neg hprivacy, and_iff_right (by simpa using hprivacy)]
      constructor
      · intro h
        obtain ⟨missing, hmissing, h⟩ := bind_eq_ok.mp h
        split_ifs at h with hnil
        rw [mapError_eq_ok.mp hmissing, not_not.mp hnil]
      · intro h
        rw [h]
        rfl

/-- Forcing an entry and routing to it are allowed alike: the entry is not called like automatic
routing itself, and says one of the two things that `privacy` is meant to say. -/
def Agrees (p : Entry) (privacy : Privacy) (required : List String) : Prop :=
  if p.name = "auto" then keeps p privacy required ≠ .ok true
  else privacy = .high → p.missingCapabilities required = .ok [] →
    fieldIs "internal" (p.get? "privacy") = true ∨ fieldIs "external" (p.get? "privacy") = true

/-- **An entry can be forced exactly when it can be routed to, as long as it is a plain one.** -/
theorem forced_iff_kept_iff (hp : p ∈ entries)
    (hunique : ∀ q ∈ entries, q.name = p.name → q = p) (hmodel : req.model = p.name) :
    (forcedEntry entries req required = .ok (some p) ↔
        keeps p req.polygate.privacy required = .ok true) ↔
      Agrees p req.polygate.privacy required := by
  rw [forcedEntry_iff hp hunique hmodel]
  unfold Agrees
  by_cases hauto : p.name = "auto"
  · simp [hauto]
  · rw [if_neg hauto, and_iff_right hauto, keeps_iff]
    -- no entry says both
    have hone : fieldIs "internal" (p.get? "privacy") = true →
        fieldIs "external" (p.get? "privacy") = false := by
      intro h
      rw [fieldIs_iff.mp h]
      decide
    by_cases hmissing : p.missingCapabilities required = .ok []
    · simp only [hmissing, and_true, forall_const]
      by_cases hhigh : req.polygate.privacy = .high
      · simp only [hhigh, forall_const]
        revert hone
        cases fieldIs "internal" (p.get? "privacy") with
        | true => simp
        | false => simp
      · simp [hhigh]
    · simp [hmissing]

/-! ## Typed entries -/

/-- For a typed entry these are the router's filters. -/
theorem keeps_provider (htyped : p.WellTyped) : keeps p privacy required = .ok true ↔
    (privacy = .high → p.provider.privacy = some (.str (str "internal"))) ∧
      Gateway.missingCapabilities p.provider required = [] := by
  obtain ⟨capabilities, hcapabilities⟩ := htyped.capabilities
  rw [keeps_iff, missingCapabilities_provider hcapabilities, Except.ok.injEq]
  exact and_congr_left' (imp_congr_right fun _ => fieldIs_iff)

/-- For typed entries both models of `_forced_provider` come to the same. -/
theorem forcedProvider_map (htyped : ∀ e ∈ entries, e.WellTyped) {policy : GatewayRoutingPolicy} :
    ∃ r : Except (Nat × Failover.Detail) (Option Entry),
      forcedEntry entries req required = r.mapError (fun d => .httpException d.1 d.2) ∧
      Failover.forcedProvider
          ⟨entries.map (·.provider), req, req.messageDicts, required, policy⟩ =
        (r.map fun forced => forced.map (·.provider)).mapError fun d =>
          .httpException d.1 d.2 := by
  unfold Failover.forcedProvider forcedEntry
  dsimp only
  by_cases hauto : req.model = "auto"
  · rw [if_pos hauto, if_pos hauto]
    exact ⟨.ok none, rfl, rfl⟩
  · rw [if_neg hauto, if_neg hauto, List.find?_map]
    cases hfind : entries.find? fun e => e.name = req.model with
    | none =>
      refine ⟨.error (400, .unknownProvider req.model), rfl, ?_⟩
      rw [show (entries.find? ((fun p => decide (p.name = req.model)) ∘ Entry.provider)) = none
        from hfind]
      rfl
    | some forced =>
      rw [show (entries.find? ((fun p => decide (p.name = req.model)) ∘ Entry.provider)) =
        some forced from hfind]
      obtain ⟨capabilities, hcapabilities⟩ :=
        (htyped forced (List.mem_of_find?_eq_some hfind)).capabilities
      dsimp only [Option.map_some]
      rw [missingCapabilities_provider hcapabilities,
        show forced.provider.privacy = forced.get? "privacy" from rfl]
      -- `external` is refused, not what is not `internal`
      by_cases hprivacy : req.polygate.privacy = .high ∧
          fieldIs "external" (forced.get? "privacy") = true
      · rw [if_pos hprivacy, if_pos hprivacy]
        exact ⟨.error (403, .externalForbidden forced.name), rfl, rfl⟩
      · rw [if_neg hprivacy, if_neg hprivacy]
        by_cases hmissing : Gateway.missingCapabilities forced.provider required = []
        · rw [hmissing]
          exact ⟨.ok (some forced), rfl, rfl⟩
        · refine ⟨.error (400, .missingCapabilities forced.name
            (sortedCapabilities (Gateway.missingCapabilities forced.provider required))), ?_, ?_⟩
          · refine (bind_of_eq_ok rfl).trans ?_
            rw [if_pos hmissing]
            rfl
          · rw [if_pos hmissing]
            rfl

end

/-! ## An entry that says neither -/

/-- A provider in the house, by a word that the router does not know. -/
def localEntry (privacy : String) : Entry where
  name := "local-x"
  fields := [(str "name", .str (str "local-x")), (str "privacy", .str (str privacy))]
  named := rfl

theorem forced_pos : 1 ≤ "local-x".length := by decide

theorem privately_pos : 1 ≤ [Message.user (str "hello")].length := le_rfl

/-- A request that forces it, with `privacy=high`. -/
def privateRequest : GatewayRequest :=
  .plain "local-x" [.user (str "hello")] { PolygateConstraints.default with privacy := .high }
    forced_pos privately_pos

theorem alone (privacy : String) : ∀ q ∈ [localEntry privacy], q.name = (localEntry privacy).name →
    q = localEntry privacy := fun _ hq _ => List.mem_singleton.mp hq

theorem forced_iff_kept_internal :
    forcedEntry [localEntry "internal"] privateRequest [] = .ok (some (localEntry "internal")) ↔
      keeps (localEntry "internal") .high [] = .ok true :=
  (forced_iff_kept_iff List.mem_cons_self (alone "internal") rfl).mpr fun _ _ => Or.inl rfl

/-- **A private request is forced to a provider that it would never be routed to.** -/
theorem forced_past_privacy :
    forcedEntry [localEntry "partner"] privateRequest [] = .ok (some (localEntry "partner")) ∧
      keeps (localEntry "partner") privateRequest.polygate.privacy [] = .ok false :=
  ⟨rfl, rfl⟩

end PolyGate.Gateway.Guardrails
