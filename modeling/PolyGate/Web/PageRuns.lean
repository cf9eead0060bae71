import PolyGate.Web.PrivateHistory
import PolyGate.Web.StoredRuns

/-!
# `Web/PageRuns.lean` — what every visit of the page keeps

Two laws of the page, whatever the user does and in whatever order the gateway answers. A message
that is on its way has its request pending, so that a page with nothing pending stores its history
(`stored_of_idle`). And as long as there are conversations, one of them is the active one
(`active_of_run`).
-/

namespace PolyGate.Web

open Lib Storage PrivateHistory

/-! ## Messages on their way -/

/-- What is on its way has a request that is pending. -/
def Waiting (s : ConversationState) (requests : List Request) : Prop :=
  ∀ c ∈ s.conversations, ∀ m ∈ c.messages, m.status = .sending →
    ∃ r ∈ requests, place r = (c.id, m.id)

section Waiting
variable {s s' : ConversationState} {requests requests' : List Request} {k : Mark}
  {f : ChatMessage → ChatMessage} {conversationId : String} {user assistant : ChatMessage}

theorem Waiting.mono (h : Waiting s requests) (hsub : ∀ r ∈ requests, r ∈ requests') :
    Waiting s requests' := by
  intro c hc m hm hstatus
  obtain ⟨r, hr, hplace⟩ := h c hc m hm hstatus
  exact ⟨r, hsub r hr, hplace⟩

/-- No message is touched. -/
theorem Waiting.quiet (h : Waiting s requests) (hquiet : Quiet [] s s') : Waiting s' requests := by
  intro c' hc' m hm hstatus
  rcases hquiet c' hc' with hnil | ⟨c, hc, hid, hmessages, -⟩
  · rw [hnil] at hm
    cases hm
  · rw [← hmessages] at hm
    rw [← hid]
    exact h c hc m hm hstatus

/-- A message is updated whose request is pending afterwards. -/
theorem Waiting.update (h : Waiting s requests) (hupdates : Updates s s' k f)
    (hsub : ∀ r ∈ requests, r ∈ requests') (hk : ∃ r ∈ requests', place r = k) :
    Waiting s' requests' := by
  intro c' hc' m' hm' hstatus
  obtain ⟨c, hc, hid, -, hmessages⟩ := hupdates c' hc'
  obtain ⟨m, hm, hmid, hm'eq⟩ := hmessages m' hm'
  rw [← hid, ← hmid]
  by_cases hplace : (c.id, m.id) = k
  · obtain ⟨r, hr, hrk⟩ := hk
    exact ⟨r, hr, hrk.trans hplace.symm⟩
  · rw [hm'eq, if_neg hplace] at hstatus
    exact h.mono hsub c hc m hm hstatus

/-- A message comes to rest, and its request is pending no longer. -/
theorem Waiting.settle (h : Waiting s requests) {n : Nat} {r : Request}
    (hr : requests[n]? = some r) (hupdates : Updates s s' (place r) f)
    (hrest : ∀ m, (f m).status ≠ .sending) : Waiting s' (requests.eraseIdx n) := by
  intro c' hc' m' hm' hstatus
  obtain ⟨c, hc, hid, -, hmessages⟩ := hupdates c' hc'
  obtain ⟨m, hm, hmid, hm'eq⟩ := hmessages m' hm'
  rw [← hid, ← hmid]
  by_cases hplace : (c.id, m.id) = place r
  · rw [hm'eq, if_pos hplace] at hstatus
    exact absurd hstatus (hrest m)
  · rw [hm'eq, if_neg hplace] at hstatus
    obtain ⟨r₀, hr₀, heq⟩ := h c hc m hm hstatus
    -- it is another request, since it is about another message
    obtain ⟨i, hi⟩ := List.mem_iff_getElem?.mp hr₀
    refine ⟨r₀, List.mem_eraseIdx_iff_getElem?.mpr ⟨i, fun hin => hplace ?_, hi⟩, heq⟩
    rw [hin, hr] at hi
    rw [← heq, Option.some.inj hi]

/-- Of the two new messages only the answer is on its way, and it has its request. -/
theorem Waiting.append (h : Waiting s requests)
    (happends : Appends s s' conversationId user assistant)
    (huser : user.status ≠ .sending)
    (hassistant : assistant.status = .sending →
      ∃ r ∈ requests', place r = (conversationId, assistant.id))
    (hsub : ∀ r ∈ requests, r ∈ requests') : Waiting s' requests' := by
  intro c' hc' m hm hstatus
  obtain ⟨c, hc, hid, -, hmessages⟩ := happends c' hc'
  rw [← hid]
  rcases hmessages m hm with hm | ⟨hcid, rfl | rfl⟩
  · exact h.mono hsub c hc m hm hstatus
  · exact absurd hstatus huser
  · rw [hcid]
    exact hassistant hstatus

end Waiting

/-! ## The active conversation -/

/-- The active conversation is one of the conversations, and there is one unless there are none. -/
structure HasActive (s : ConversationState) : Prop where
  found : ∀ id ∈ s.activeConversationId, ∃ c ∈ s.conversations, c.id = id
  chosen : s.activeConversationId = none → s.conversations = []

section Active
variable {s : ConversationState}

theorem HasActive.ofSome {c : Conversation} (hc : c ∈ s.conversations)
    (hactive : s.activeConversationId = some c.id) : HasActive s := by
  constructor
  · intro id hid
    obtain rfl := Option.some.inj (hactive.symm.trans hid)
    exact ⟨c, hc, rfl⟩
  · intro hnone
    cases hactive.symm.trans hnone

/-- Nothing but the ids of the conversations matters. -/
theorem HasActive.ofIds {s' : ConversationState} (h : HasActive s)
    (hactive : s'.activeConversationId = s.activeConversationId)
    (hids : s'.conversations.map (·.id) = s.conversations.map (·.id)) : HasActive s' := by
  constructor
  · intro id hid
    rw [hactive] at hid
    obtain ⟨c, hc, rfl⟩ := h.found id hid
    have hmem : c.id ∈ s'.conversations.map (·.id) := hids ▸ List.mem_map_of_mem hc
    obtain ⟨c', hc', heq⟩ := List.mem_map.mp hmem
    exact ⟨c', hc', heq⟩
  · intro hnone
    rw [hactive] at hnone
    rw [h.chosen hnone] at hids
    exact List.map_eq_nil_iff.mp hids

theorem HasActive.withConversation (h : HasActive s) {id : String}
    {update : Conversation → Conversation} (hupdate : ∀ c, (update c).id = c.id) :
    HasActive (withConversation s id update) := by
  refine h.ofIds rfl ?_
  rw [Web.withConversation, List.map_map]
  refine List.map_congr_left fun c _ => ?_
  simp only [Function.comp]
  split
  · exact hupdate c
  · rfl

/-- Falling back on the first conversation is always right. -/
theorem hasActive_head (conversations : List Conversation) (hydrated : Bool) :
    HasActive ⟨conversations, conversations.head?.map (·.id), hydrated⟩ := by
  cases conversations with
  | nil =>
    refine ⟨fun id hid => ?_, fun _ => rfl⟩
    cases hid
  | cons c conversations => exact HasActive.ofSome List.mem_cons_self rfl

/-- Only four actions change which conversation is active, or which there are. -/
theorem HasActive.reducer (h : HasActive s) (now : JsString) (action : ConversationAction) :
    HasActive (conversationReducer now s action) := by
  cases action with
  | createConversation conversation =>
    exact HasActive.ofSome List.mem_cons_self rfl
  | selectConversation conversationId =>
    simp only [conversationReducer]
    split
    · next hany =>
      obtain ⟨c, hc, hid⟩ := List.any_eq_true.mp hany
      obtain rfl := of_decide_eq_true hid
      exact HasActive.ofSome hc rfl
    · exact h
  | renameConversation conversationId title =>
    simp only [conversationReducer]
    split
    · exact h
    · exact h.withConversation fun _ => rfl
  | deleteConversation conversationId =>
    simp only [conversationReducer]
    split
    · exact hasActive_head _ _
    · next hother =>
      refine ⟨fun id hid => ?_, fun hnone => ?_⟩
      · obtain ⟨c, hc, rfl⟩ := h.found id hid
        refine ⟨c, List.mem_filter.mpr ⟨hc, decide_eq_true fun heq => hother ?_⟩, rfl⟩
        rw [← heq]
        exact hid
      · rw [h.chosen hnone]
        rfl
  | clearAllConversations => exact hasActive_head [] true
  | _ => exact h.withConversation fun _ => rfl

/-- The active id of the storage is kept if it is found, else the first one is taken. -/
theorem hasActive_restore (stored : Option Persisted) : HasActive (restoreState stored) := by
  cases stored with
  | none => exact hasActive_head [] true
  | some p =>
    simp only [restoreState]
    split
    · next hany =>
      obtain ⟨c, hc, hid⟩ := List.any_eq_true.mp hany
      have hid := of_decide_eq_true hid
      refine ⟨fun id hsome => ⟨c, hc, ?_⟩, fun hnone => ?_⟩
      · exact Option.some.inj (hid.trans hsome)
      · exact nomatch hid.trans hnone
    · exact hasActive_head _ _

end Active

/-! ## One event -/

section Step
variable {p p' : Page} {now : JsString} {action : ConversationAction} {r : Request}

theorem Waiting.relaunch (h : Waiting p.state p.requests) (hrelaunch : Relaunch p action r) :
    Waiting (p.dispatch now action).state (r :: p.requests) := by
  obtain ⟨c, -, m, -, -, -, -, -, hreducer⟩ := hrelaunch
  rw [Page.dispatch, hreducer]
  exact h.update (k := place r) (updates_message fun _ => rfl)
    (fun _ hr => List.mem_cons_of_mem _ hr) ⟨r, List.mem_cons_self, rfl⟩

/-- A message comes on its way with its request, and the request ends with it. -/
theorem step_waiting {e : UiEvent} (h : Waiting p.state p.requests)
    (hstep : Web.step p now e = some p') : Waiting p'.state p'.requests := by
  cases e with
  | createConversation id =>
    obtain rfl := Option.some.inj hstep
    refine h.quiet (quiet_of_subset fun c hc => ?_)
    rcases List.mem_cons.mp hc with rfl | hc
    · exact Or.inl rfl
    · exact Or.inr hc
  | selectConversation conversationId =>
    obtain rfl := Option.some.inj hstep
    refine h.quiet (quiet_of_subset fun c hc => Or.inr ?_)
    simp only [Page.dispatch, conversationReducer] at hc
    split at hc
    · exact hc
    · exact hc
  | renameConversation conversationId title =>
    obtain rfl := Option.some.inj hstep
    refine h.quiet ?_
    simp only [Page.dispatch, conversationReducer]
    split
    · exact quiet_of_subset fun c hc => Or.inr hc
    · exact quiet_withConversation (fun _ => rfl) (fun _ => rfl) fun _ _ _ => Or.inl
  | deleteConversation conversationId =>
    obtain rfl := Option.some.inj hstep
    exact h.quiet (quiet_of_subset fun c hc => Or.inr (List.mem_filter.mp hc).1)
  | updateSettings patch =>
    obtain ⟨c, -, rfl⟩ := Option.map_eq_some_iff.mp hstep
    exact h.quiet (quiet_withConversation (fun _ => rfl) (fun _ => rfl)
      fun _ _ _ _ => Or.inr fun _ _ => List.not_mem_nil)
  | setStorageMode mode =>
    obtain ⟨c, -, rfl⟩ := Option.map_eq_some_iff.mp hstep
    exact h.quiet (quiet_withConversation (fun _ => rfl) (fun _ => rfl)
      fun _ _ _ _ => Or.inr fun _ _ => List.not_mem_nil)
  | clearAll =>
    obtain rfl := Option.some.inj hstep
    exact fun c hc => absurd hc List.not_mem_nil
  | sendMessage content userId assistantId =>
    obtain ⟨⟨action, r⟩, hsend, rfl⟩ := Option.map_eq_some_iff.mp hstep
    obtain ⟨c, -, -, rfl, rfl⟩ := sendMessage_eq_some hsend
    refine h.append (appends_appendUserMessage p.state now c.id _ _) (fun hsent => ?_) ?_
      fun _ hr => List.mem_cons_of_mem _ hr
    · cases hsent
    · exact fun _ => ⟨_, List.mem_cons_self, rfl⟩
  | retryRequest messageId =>
    obtain ⟨⟨action, r⟩, hretry, rfl⟩ := Option.map_eq_some_iff.mp hstep
    exact h.relaunch (retryRequest_eq_some hretry)
  | regenerateLast =>
    obtain ⟨⟨action, r⟩, hregenerate, rfl⟩ := Option.map_eq_some_iff.mp hstep
    exact h.relaunch (regenerateLast_eq_some hregenerate)
  | loadFixture answer card userId assistantId =>
    obtain ⟨action, hfixture, rfl⟩ := Option.map_eq_some_iff.mp hstep
    obtain ⟨c, -, rfl⟩ := loadFixture_eq_some hfixture
    refine h.append (appends_appendUserMessage p.state now c.id _ _) ?_ ?_ fun _ hr => hr
    · intro hsent
      cases hsent
    · intro hsent
      cases hsent
  | delta n delta =>
    obtain ⟨r, hr, hp'⟩ := Option.bind_eq_some_iff.mp hstep
    obtain rfl := Option.some.inj hp'
    exact h.update (k := place r) (updates_message fun _ => rfl) (fun _ hr => hr)
      ⟨r, List.mem_of_getElem? hr, rfl⟩
  | complete n answer card warning =>
    obtain ⟨r, hr, hp'⟩ := Option.bind_eq_some_iff.mp hstep
    obtain rfl := Option.some.inj hp'
    refine h.settle hr (updates_message fun _ => rfl) fun m hsent => ?_
    cases hsent
  | fail n error =>
    obtain ⟨r, hr, hp'⟩ := Option.bind_eq_some_iff.mp hstep
    obtain rfl := Option.some.inj hp'
    refine h.settle hr (updates_message fun _ => rfl) fun m hsent => ?_
    cases hsent
  | cancelled n =>
    obtain ⟨r, hr, hp'⟩ := Option.bind_eq_some_iff.mp hstep
    obtain rfl := Option.some.inj hp'
    refine h.settle hr (updates_message fun _ => rfl) fun m hsent => ?_
    cases hsent

theorem dispatch_state (p : Page) (now : JsString) (action : ConversationAction) :
    (p.dispatch now action).state = conversationReducer now p.state action := rfl

/-- Settling dispatches one action. -/
theorem settle_state {n : Nat} {action : Request → ConversationAction}
    (h : settle p now n action = some p') :
    ∃ action, p'.state = conversationReducer now p.state action := by
  obtain ⟨r, -, hp'⟩ := Option.bind_eq_some_iff.mp h
  obtain rfl := Option.some.inj hp'
  exact ⟨action r, rfl⟩

/-- The state after an event is one that the reducer makes. -/
theorem step_state {e : UiEvent} (hstep : Web.step p now e = some p') :
    ∃ action, p'.state = conversationReducer now p.state action := by
  cases e with
  | createConversation _ | selectConversation _ | renameConversation _ _ | deleteConversation _
  | clearAll =>
    obtain rfl := Option.some.inj hstep
    exact ⟨_, dispatch_state p now _⟩
  | updateSettings _ | setStorageMode _ =>
    obtain ⟨c, -, rfl⟩ := Option.map_eq_some_iff.mp hstep
    exact ⟨_, dispatch_state p now _⟩
  | sendMessage _ _ _ | retryRequest _ | regenerateLast | loadFixture _ _ _ _ =>
    obtain ⟨action, -, rfl⟩ := Option.map_eq_some_iff.mp hstep
    exact ⟨_, dispatch_state p now _⟩
  | delta n delta =>
    obtain ⟨r, -, hp'⟩ := Option.bind_eq_some_iff.mp hstep
    obtain rfl := Option.some.inj hp'
    exact ⟨_, dispatch_state p now _⟩
  | complete _ _ _ _ | fail _ _ | cancelled _ => exact settle_state hstep

/-- No action takes the page back behind its loading. -/
theorem hydrated_reducer {s : ConversationState} (h : s.hydrated = true)
    (action : ConversationAction) : (conversationReducer now s action).hydrated = true := by
  cases action with
  | selectConversation _ | renameConversation _ _ =>
    simp only [conversationReducer]
    split
    · exact h
    · exact h
  | clearAllConversations => rfl
  | _ => exact h

end Step

/-! ## Every run -/

section Run
variable {stored : Option Persisted} {ts : List (Page × (JsString × UiEvent) × Page)} {p : Page}

/-- Messages on their way are cancelled when they are restored. -/
theorem waiting_restore : Waiting (restoreState stored) [] := by
  intro c hc m hm hstatus
  cases stored with
  | none => cases hc
  | some persisted =>
    obtain ⟨c₀, -, rfl⟩ := List.mem_map.mp hc
    obtain ⟨m₀, -, rfl⟩ := List.mem_map.mp hm
    unfold restoredMessage at hstatus
    split at hstatus
    · cases hstatus
    · next hnot => exact absurd hstatus hnot

/-- What the reducer keeps of a state, every run keeps. -/
theorem state_of_run {I : ConversationState → Prop} (h : PageRun (loadPage stored) ts p)
    (hrestore : I (restoreState stored))
    (hreducer : ∀ s now action, I s → I (conversationReducer now s action)) : I p.state := by
  refine h.invariant (I := fun p => I p.state) hrestore fun p₁ l p₂ hI hstep => ?_
  obtain ⟨action, heq⟩ := step_state hstep
  rw [heq]
  exact hreducer _ _ _ hI

theorem hydrated_of_run (h : PageRun (loadPage stored) ts p) : p.state.hydrated = true :=
  state_of_run (I := fun s => s.hydrated = true) h (by cases stored <;> rfl)
    fun _ _ action hs => hydrated_reducer hs action

/-- **Nothing is stuck.** In every state of a visit, a message on its way has a request pending; so
once nothing is pending, the page stores its history. -/
theorem stored_of_idle (h : PageRun (loadPage stored) ts p) :
    Waiting p.state p.requests ∧
      (p.requests = [] → persistEffect p.state = some (persistState p.state)) := by
  have hwaiting : Waiting p.state p.requests :=
    h.invariant (I := fun p => Waiting p.state p.requests) waiting_restore
      fun _ _ _ h hstep => step_waiting h hstep
  refine ⟨hwaiting, fun hidle => if_pos ⟨hydrated_of_run h, fun hactive => ?_⟩⟩
  obtain ⟨c, hc, hany⟩ := List.any_eq_true.mp hactive
  obtain ⟨m, hm, hstatus⟩ := List.any_eq_true.mp hany
  obtain ⟨r, hr, -⟩ := hwaiting c hc m hm (of_decide_eq_true hstatus)
  rw [hidle] at hr
  cases hr

/-- A question and its answer. -/
def answeredTalk : List (JsString × UiEvent) :=
  [([], .createConversation "c"), ([], .sendMessage (js "q") "u" "a"),
    ([], .complete 0 (js "r") none none)]

/-- Two conversations, of which the active one is deleted. -/
def deletedTalk : List (JsString × UiEvent) :=
  [([], .createConversation "b"), ([], .createConversation "c"), ([], .deleteConversation "c")]

theorem run_of_talk {ls : List (JsString × UiEvent)} {check : Page → Bool}
    (h : (ls.foldlM (fun p l => Web.step p l.1 l.2) (loadPage none)).any check = true) :
    ∃ ts p, PageRun (loadPage none) ts p ∧ check p = true := by
  obtain ⟨p, hp, hcheck⟩ := (Option.any_eq_true _ _).mp h
  obtain ⟨ts, hrun, -⟩ := run_of_events hp
  exact ⟨ts, p, hrun, hcheck⟩

theorem talks_end :
    ((answeredTalk.foldlM (fun p l => Web.step p l.1 l.2) (loadPage none)).any
      fun p => p.requests.isEmpty && p.state.conversations.length = 1) = true ∧
    ((deletedTalk.foldlM (fun p l => Web.step p l.1 l.2) (loadPage none)).any
      fun p => p.state.conversations.length = 1) = true := by
  decide +kernel

/-- A talk after whose answer the page stores. -/
theorem stored_of_idle_answered : ∃ ts p, PageRun (loadPage none) ts p ∧
    p.state.conversations.length = 1 ∧
    persistEffect p.state = some (persistState p.state) := by
  obtain ⟨ts, p, hrun, hcheck⟩ := run_of_talk talks_end.1
  rw [Bool.and_eq_true, List.isEmpty_iff, decide_eq_true_eq] at hcheck
  exact ⟨ts, p, hrun, hcheck.2, (stored_of_idle hrun).2 hcheck.1⟩

/-- **A visit always has its active conversation**, unless it has no conversation at all. -/
theorem active_of_run (h : PageRun (loadPage stored) ts p) :
    HasActive p.state ∧ (p.active = none ↔ p.state.conversations = []) := by
  have hactive : HasActive p.state :=
    state_of_run h (hasActive_restore stored) fun _ now action hs => hs.reducer now action
  refine ⟨hactive, fun hnone => ?_, fun hempty => ?_⟩
  · cases hid : p.state.activeConversationId with
    | none => exact hactive.chosen hid
    | some id =>
      obtain ⟨c, hc, rfl⟩ := hactive.found id hid
      rw [Page.active, hid] at hnone
      have hother := List.find?_eq_none.mp hnone c hc
      simp at hother
  · rw [Page.active, hempty]
    cases p.state.activeConversationId <;> rfl

/-- Deleting the active conversation leaves the other one active. -/
theorem active_of_run_deleted : ∃ ts p, PageRun (loadPage none) ts p ∧
    p.state.conversations.length = 1 ∧ p.active ≠ none := by
  obtain ⟨ts, p, hrun, hcheck⟩ := run_of_talk talks_end.2
  have hlength := of_decide_eq_true hcheck
  refine ⟨ts, p, hrun, hlength, fun hnone => ?_⟩
  rw [(active_of_run hrun).2.mp hnone] at hlength
  cases hlength

end Run

end PolyGate.Web
