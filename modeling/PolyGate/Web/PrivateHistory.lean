import PolyGate.Web.Conversations

/-!
# `Web/PrivateHistory.lean` — private messages and the storage of the browser

A request is private when it is sent with `privacy=high`. A `Tracked` page marks the messages that
come from private requests, and the user messages that prompted them: what the source does not
write down. No page of a careful run stores a marked message.

Two things are not careful: to turn the storage of a conversation on again after private messages,
which the page allows as soon as the privacy is back to standard, and to send a private request from
a stored conversation, which a conversation can be that was restored as a private one.
-/

namespace PolyGate.Web.PrivateHistory

open Lib

/-! ## What is private -/

/-- A message of a conversation. -/
abbrev Mark := String × String

def place (r : Request) : Mark := (r.conversationId, r.messageId)

/-- `privacy=high` is sent. -/
def isPrivate (r : Request) : Bool := r.payload.privacy = .high

/-- The last of some messages that is the user's. -/
def prompter (conversationId : String) (messages : List ChatMessage) : List Mark :=
  ((messages.reverse.find? (·.role = .user)).map fun m => (conversationId, m.id)).toList

/-- A request that is sent marks its answer and its prompt, or takes the mark from its answer. -/
def markRequest (marks : List Mark) (r : Request) : List Mark :=
  if isPrivate r then place r :: (prompter r.conversationId r.requestMessages ++ marks)
  else marks.filter (· ≠ place r)

/-- A request that writes into its message marks it. -/
def markWrite (marks : List Mark) (r : Request) : List Mark :=
  if isPrivate r then place r :: marks else marks

/-- The marks after an event. -/
def track (marks : List Mark) (p : Page) (now : JsString) : UiEvent → List Mark
  | .delta n _ | .complete n _ _ _ =>
    match p.requests[n]? with
    | some r => markWrite marks r
    | none => marks
  | e =>
    match launch p now e with
    | some (_, r) => markRequest marks r
    | none => marks

structure Tracked where
  page : Page
  marks : List Mark

def Tracked.step (t : Tracked) (now : JsString) (e : UiEvent) : Option Tracked :=
  (Web.step t.page now e).map fun p => ⟨p, track t.marks t.page now e⟩

/-- The messages of a restored conversation that a private request left there. -/
def privateMessages (conversationId : String) (before : List ChatMessage) :
    List ChatMessage → List Mark
  | [] => []
  | m :: messages =>
    (if m.requestSettings.any (·.privacy = .high) then
      (conversationId, m.id) :: prompter conversationId before else []) ++
      privateMessages conversationId (before ++ [m]) messages

def restoredMarks (state : ConversationState) : List Mark :=
  state.conversations.flatMap fun c => privateMessages c.id [] c.messages

def load (stored : Option Persisted) : Tracked :=
  ⟨loadPage stored, restoredMarks (restoreState stored)⟩

/-- A run of the page, from what was stored. -/
abbrev Visit (stored : Option Persisted) (ts : List (Tracked × (JsString × UiEvent) × Tracked))
    (t : Tracked) : Prop :=
  Run (fun t l t' => t.step l.1 l.2 = some t') (load stored) ts t

/-! ## What holds of a state -/

section Parts
variable (s : ConversationState)

/-- Conversations that are stored have no marks. -/
def Clean (marks : List Mark) : Prop :=
  ∀ c ∈ s.conversations, c.storageMode = .persistent → ∀ m ∈ c.messages, (c.id, m.id) ∉ marks

/-- The messages of pending requests are on their way. -/
def Sending (requests : List Request) : Prop :=
  ∀ r ∈ requests, ∀ c ∈ s.conversations, ∀ m ∈ c.messages, (c.id, m.id) = place r →
    m.status = .sending

def Known (ids : List String) : Prop := ∀ c ∈ s.conversations, ∀ m ∈ c.messages, m.id ∈ ids

def Unstored (conversationId : String) : Prop :=
  ∀ c ∈ s.conversations, c.id = conversationId → c.storageMode = .ephemeral

instance (conversationId : String) : Decidable (Unstored s conversationId) :=
  inferInstanceAs (Decidable (∀ c ∈ s.conversations, _))

end Parts

/-! ## The law -/

/-- What is stored holds no marked message. -/
def Unwritten (t : Tracked) : Prop :=
  ∀ written ∈ persistEffect t.page.state, ∀ c ∈ written, ∀ m ∈ c.messages, (c.id, m.id) ∉ t.marks

instance (t : Tracked) : Decidable (Unwritten t) :=
  inferInstanceAs (Decidable (∀ written ∈ persistEffect t.page.state, _))

/-- The event turns the storage on. -/
def turnsOn : UiEvent → Bool
  | .setStorageMode .persistent => true
  | _ => false

/-- The storage is turned on only for a conversation without marks, and private requests are sent
only from conversations that are not stored. -/
def Careful (t : Tracked) (now : JsString) (e : UiEvent) : Prop :=
  (turnsOn e = true → ∀ a ∈ t.page.active, ∀ c ∈ t.page.state.conversations, c.id = a.id →
    ∀ m ∈ c.messages, (c.id, m.id) ∉ t.marks) ∧
  ∀ sent ∈ launch t.page now e, isPrivate sent.2 = true →
    Unstored t.page.state sent.2.conversationId

instance (t : Tracked) (now : JsString) (e : UiEvent) : Decidable (Careful t now e) :=
  inferInstanceAs (Decidable (_ ∧ _))

/-! ## The invariant -/

structure Inv (t : Tracked) : Prop where
  clean : Clean t.page.state t.marks
  sending : Sending t.page.state t.page.requests
  /-- pending private requests have marked their message -/
  marked : ∀ r ∈ t.page.requests, isPrivate r = true → place r ∈ t.marks
  distinct : (t.page.requests.map place).Nodup
  known : Known t.page.state t.page.ids
  knownRequests : ∀ r ∈ t.page.requests, r.messageId ∈ t.page.ids
  knownMarks : ∀ k ∈ t.marks, k.2 ∈ t.page.ids

/-! ## What the reducer can do -/

section Reducer
variable {s s' : ConversationState} {marks : List Mark} {requests : List Request}
  {ids : List String} {conversationId messageId : String} {now : JsString}

/-- Conversations are left, emptied or made, but no message is touched. -/
def Quiet (marks : List Mark) (s s' : ConversationState) : Prop :=
  ∀ c' ∈ s'.conversations, c'.messages = [] ∨
    ∃ c ∈ s.conversations, c.id = c'.id ∧ c.messages = c'.messages ∧
      (c'.storageMode = .persistent → c.storageMode = .persistent ∨
        ∀ m ∈ c.messages, (c.id, m.id) ∉ marks)

/-- An update that leaves id and messages alone, and stores no marked message. -/
theorem quiet_withConversation {update : Conversation → Conversation}
    (hid : ∀ c, (update c).id = c.id) (hmessages : ∀ c, (update c).messages = c.messages)
    (hmode : ∀ c ∈ s.conversations, c.id = conversationId → (update c).storageMode = .persistent →
      c.storageMode = .persistent ∨ ∀ m ∈ c.messages, (c.id, m.id) ∉ marks) :
    Quiet marks s (withConversation s conversationId update) := by
  intro c' hc'
  obtain ⟨c, hc, rfl⟩ := List.mem_map.mp hc'
  refine Or.inr ⟨c, hc, ?_⟩
  split
  · next hcid => exact ⟨(hid c).symm, (hmessages c).symm, hmode c hc hcid⟩
  · exact ⟨rfl, rfl, Or.inl⟩

theorem quiet_of_subset
    (h : ∀ c' ∈ s'.conversations, c'.messages = [] ∨ c' ∈ s.conversations) : Quiet marks s s' :=
  fun c' hc' => (h c' hc').imp_right fun hc => ⟨c', hc, rfl, rfl, Or.inl⟩

/-- What is quiet stores no mark. -/
theorem Quiet.clean (h : Quiet marks s s') (hclean : Clean s marks) : Clean s' marks := by
  intro c' hc' hmode m hm
  rcases h c' hc' with hnil | ⟨c, hc, hid, hmessages, hstored⟩
  · rw [hnil] at hm
    cases hm
  · rw [← hmessages] at hm
    rw [← hid]
    rcases hstored hmode with hpersistent | hfree
    · exact hclean c hc hpersistent m hm
    · exact hfree m hm

theorem Quiet.sending (h : Quiet marks s s') (hsending : Sending s requests) :
    Sending s' requests := by
  intro r hr c' hc' m hm hplace
  rcases h c' hc' with hnil | ⟨c, hc, hid, hmessages, -⟩
  · rw [hnil] at hm
    cases hm
  · rw [← hmessages] at hm
    rw [← hid] at hplace
    exact hsending r hr c hc m hm hplace

theorem Quiet.known (h : Quiet marks s s') (hknown : Known s ids) : Known s' ids := by
  intro c' hc' m hm
  rcases h c' hc' with hnil | ⟨c, hc, -, hmessages, -⟩
  · rw [hnil] at hm
    cases hm
  · rw [← hmessages] at hm
    exact hknown c hc m hm

/-- One message of a conversation is updated. -/
def Updates (s s' : ConversationState) (k : Mark) (f : ChatMessage → ChatMessage) : Prop :=
  ∀ c' ∈ s'.conversations, ∃ c ∈ s.conversations, c.id = c'.id ∧ c.storageMode = c'.storageMode ∧
    ∀ m' ∈ c'.messages, ∃ m ∈ c.messages, m.id = m'.id ∧ m' = if (c.id, m.id) = k then f m else m

theorem updates_message {f : ChatMessage → ChatMessage} (hid : ∀ m, (f m).id = m.id) :
    Updates s (withConversation s conversationId fun c => updateMessage now c messageId f)
      (conversationId, messageId) f := by
  intro c' hc'
  obtain ⟨c, hc, rfl⟩ := List.mem_map.mp hc'
  refine ⟨c, hc, ?_⟩
  by_cases hcid : c.id = conversationId
  · rw [if_pos hcid]
    refine ⟨rfl, rfl, fun m' hm' => ?_⟩
    obtain ⟨m, hm, rfl⟩ := List.mem_map.mp hm'
    refine ⟨m, hm, ?_, ?_⟩
    · split
      · exact (hid m).symm
      · rfl
    · simp [hcid]
  · rw [if_neg hcid]
    exact ⟨rfl, rfl, fun m hm => ⟨m, hm, rfl, by simp [hcid]⟩⟩

section Update
variable {k : Mark} {f : ChatMessage → ChatMessage}

/-- An update moves no message to another conversation. -/
theorem Updates.clean (h : Updates s s' k f) (hclean : Clean s marks) : Clean s' marks := by
  intro c' hc' hmode m' hm'
  obtain ⟨c, hc, hid, hstored, hmessages⟩ := h c' hc'
  obtain ⟨m, hm, hmid, -⟩ := hmessages m' hm'
  rw [← hid, ← hmid]
  exact hclean c hc (hstored.trans hmode) m hm

theorem Updates.known (h : Updates s s' k f) (hknown : Known s ids) : Known s' ids := by
  intro c' hc' m' hm'
  obtain ⟨c, hc, -, -, hmessages⟩ := h c' hc'
  obtain ⟨m, hm, hmid, -⟩ := hmessages m' hm'
  rw [← hmid]
  exact hknown c hc m hm

/-- A message that stays on its way, or that is no longer asked for. -/
theorem Updates.sending (h : Updates s s' k f) (hsending : Sending s requests)
    (hkeeps : ∀ r ∈ requests, place r = k → ∀ m, m.status = .sending → (f m).status = .sending) :
    Sending s' requests := by
  intro r hr c' hc' m' hm' hplace
  obtain ⟨c, hc, hid, -, hmessages⟩ := h c' hc'
  obtain ⟨m, hm, hmid, hm'eq⟩ := hmessages m' hm'
  rw [← hid, ← hmid] at hplace
  have hstatus := hsending r hr c hc m hm hplace
  rw [hm'eq]
  split
  · next hk => exact hkeeps r hr (hplace.symm.trans hk) m hstatus
  · exact hstatus

/-- The message that is asked for again is on its way. -/
theorem Updates.sending_of_requested {r : Request} {settings : RoutingSettings}
    (h : Updates s s' (place r) (requested settings)) : Sending s' [r] := by
  intro r₀ hr₀ c' hc' m' hm' hplace
  rw [List.mem_singleton.mp hr₀] at hplace
  obtain ⟨c, -, hid, -, hmessages⟩ := h c' hc'
  obtain ⟨m, -, hmid, hm'eq⟩ := hmessages m' hm'
  rw [← hid, ← hmid] at hplace
  rw [hm'eq, if_pos hplace]
  rfl

theorem Updates.unstored (h : Updates s s' k f) (hunstored : Unstored s conversationId) :
    Unstored s' conversationId := by
  intro c' hc' hcid
  obtain ⟨c, hc, hid, hstored, -⟩ := h c' hc'
  exact hstored.symm.trans (hunstored c hc (hid.trans hcid))

end Update

/-- Two messages come to the end of a conversation. -/
def Appends (s s' : ConversationState) (conversationId : String) (user assistant : ChatMessage) :
    Prop :=
  ∀ c' ∈ s'.conversations, ∃ c ∈ s.conversations, c.id = c'.id ∧ c.storageMode = c'.storageMode ∧
    ∀ m ∈ c'.messages, m ∈ c.messages ∨ c.id = conversationId ∧ (m = user ∨ m = assistant)

theorem appends_appendUserMessage (s : ConversationState) (now : JsString)
    (conversationId : String) (user assistant : ChatMessage) :
    Appends s (conversationReducer now s (.appendUserMessage conversationId user assistant))
      conversationId user assistant := by
  intro c' hc'
  obtain ⟨c, hc, rfl⟩ := List.mem_map.mp hc'
  refine ⟨c, hc, ?_⟩
  by_cases hcid : c.id = conversationId
  · rw [if_pos hcid]
    refine ⟨rfl, rfl, fun m hm => ?_⟩
    rcases List.mem_append.mp hm with hm | hm
    · exact Or.inl hm
    · exact Or.inr ⟨hcid, by simpa using hm⟩
  · rw [if_neg hcid]
    exact ⟨rfl, rfl, fun m hm => Or.inl hm⟩

section Append
variable {user assistant : ChatMessage}

/-- New messages are unmarked, so nothing marked is stored. -/
theorem Appends.clean (h : Appends s s' conversationId user assistant) (hclean : Clean s marks)
    (hnew : ∀ c ∈ s.conversations, c.id = conversationId → c.storageMode = .persistent →
      (conversationId, user.id) ∉ marks ∧ (conversationId, assistant.id) ∉ marks) :
    Clean s' marks := by
  intro c' hc' hmode m hm
  obtain ⟨c, hc, hid, hstored, hmessages⟩ := h c' hc'
  rw [← hid]
  rcases hmessages m hm with hm | ⟨hcid, rfl | rfl⟩
  · exact hclean c hc (hstored.trans hmode) m hm
  · rw [hcid]
    exact (hnew c hc hcid (hstored.trans hmode)).1
  · rw [hcid]
    exact (hnew c hc hcid (hstored.trans hmode)).2

/-- No request that is pending knows the new messages. -/
theorem Appends.sending (h : Appends s s' conversationId user assistant)
    (hsending : Sending s requests)
    (hfresh : ∀ r ∈ requests, r.messageId ≠ user.id ∧ r.messageId ≠ assistant.id) :
    Sending s' requests := by
  intro r hr c' hc' m hm hplace
  obtain ⟨c, hc, hid, -, hmessages⟩ := h c' hc'
  have hmid : m.id = r.messageId := congrArg Prod.snd hplace
  rcases hmessages m hm with hm | ⟨-, rfl | rfl⟩
  · rw [← hid] at hplace
    exact hsending r hr c hc m hm hplace
  · exact absurd hmid.symm (hfresh r hr).1
  · exact absurd hmid.symm (hfresh r hr).2

theorem Appends.known (h : Appends s s' conversationId user assistant) (hknown : Known s ids) :
    Known s' (user.id :: assistant.id :: ids) := by
  intro c' hc' m hm
  obtain ⟨c, hc, -, -, hmessages⟩ := h c' hc'
  rcases hmessages m hm with hm | ⟨-, rfl | rfl⟩
  · exact List.mem_cons_of_mem _ (List.mem_cons_of_mem _ (hknown c hc m hm))
  · simp
  · simp

theorem Appends.unstored {id : String} (h : Appends s s' conversationId user assistant)
    (hunstored : Unstored s id) : Unstored s' id := by
  intro c' hc' hcid
  obtain ⟨c, hc, hid, hstored, -⟩ := h c' hc'
  exact hstored.symm.trans (hunstored c hc (hid.trans hcid))

end Append

end Reducer

/-! ## The marks -/

section Marks
variable {marks : List Mark} {r : Request} {s : ConversationState} {k : Mark}

theorem mem_prompter {conversationId : String} {messages : List ChatMessage}
    (hk : k ∈ prompter conversationId messages) :
    ∃ m ∈ messages, k = (conversationId, m.id) := by
  obtain ⟨m, hm, rfl⟩ := Option.map_eq_some_iff.mp (Option.mem_toList.mp hk)
  exact ⟨m, List.mem_reverse.mp (List.mem_of_find?_eq_some hm), rfl⟩

/-- The marks of a private request: its own message and the one it answers. -/
theorem mem_markRequest (hk : k ∈ markRequest marks r) :
    k ∈ marks ∨ isPrivate r = true ∧
      (k = place r ∨ ∃ m ∈ r.requestMessages, k = (r.conversationId, m.id)) := by
  unfold markRequest at hk
  split at hk
  · next hprivate =>
    rcases List.mem_cons.mp hk with rfl | hk
    · exact Or.inr ⟨hprivate, Or.inl rfl⟩
    · rcases List.mem_append.mp hk with hk | hk
      · exact Or.inr ⟨hprivate, Or.inr (mem_prompter hk)⟩
      · exact Or.inl hk
  · exact Or.inl (List.mem_filter.mp hk).1

theorem marked_of_private (h : isPrivate r = true) : place r ∈ markRequest marks r := by
  simp [markRequest, h]

/-- A request takes the mark from its own message only. -/
theorem mem_markRequest_of_mem (hk : k ∈ marks) (hne : k ≠ place r) : k ∈ markRequest marks r := by
  unfold markRequest
  split
  · exact List.mem_cons_of_mem _ (List.mem_append_right _ hk)
  · simp [hk, hne]

/-- A careful request marks nothing that is stored. -/
theorem Clean.markRequest (hclean : Clean s marks)
    (hcareful : isPrivate r = true → Unstored s r.conversationId) :
    Clean s (markRequest marks r) := by
  intro c hc hmode m hm hk
  rcases mem_markRequest hk with hk | ⟨hprivate, hk⟩
  · exact hclean c hc hmode m hm hk
  · have hcid : c.id = r.conversationId := by
      rcases hk with hk | ⟨b, -, hk⟩
      · exact congrArg Prod.fst hk
      · exact congrArg Prod.fst hk
    rw [hcareful hprivate c hc hcid] at hmode
    cases hmode

/-- A pending request marks nothing that is not marked. -/
theorem mem_markWrite (hmarked : isPrivate r = true → place r ∈ marks) :
    k ∈ markWrite marks r ↔ k ∈ marks := by
  unfold markWrite
  split
  · next hprivate =>
    rw [List.mem_cons, or_iff_right_iff_imp]
    rintro rfl
    exact hmarked hprivate
  · rfl

end Marks

/-! ## One event -/

section Step
variable {p : Page} {marks : List Mark} {s' : ConversationState} {r : Request} {now : JsString}
  {action : ConversationAction} {userId assistantId : String}

/-- Events that touch no message keep the invariant. -/
theorem Inv.quiet (h : Inv ⟨p, marks⟩) (hquiet : Quiet marks p.state s') :
    Inv ⟨{ p with state := s' }, marks⟩ where
  clean := hquiet.clean h.clean
  sending := hquiet.sending h.sending
  marked := h.marked
  distinct := h.distinct
  known := hquiet.known h.known
  knownRequests := h.knownRequests
  knownMarks := h.knownMarks

/-- A message on its way stays so, unless no pending request is about it. -/
theorem Inv.update (h : Inv ⟨p, marks⟩) {k : Mark} {f : ChatMessage → ChatMessage}
    (hupdates : Updates p.state s' k f)
    (hkeeps : ∀ r ∈ p.requests, place r = k → ∀ m, m.status = .sending → (f m).status = .sending) :
    Inv ⟨{ p with state := s' }, marks⟩ where
  clean := hupdates.clean h.clean
  sending := hupdates.sending h.sending hkeeps
  marked := h.marked
  distinct := h.distinct
  known := hupdates.known h.known
  knownRequests := h.knownRequests
  knownMarks := h.knownMarks

/-- One more request is pending, for a message that is on its way. -/
theorem Inv.request (h : Inv ⟨p, marks⟩)
    (hcareful : isPrivate r = true → Unstored p.state r.conversationId)
    (hsending : Sending p.state [r]) (hidle : ∀ r₀ ∈ p.requests, place r₀ ≠ place r)
    (hknown : r.messageId ∈ p.ids) (hprompts : ∀ b ∈ r.requestMessages, b.id ∈ p.ids) :
    Inv ⟨{ p with requests := r :: p.requests }, markRequest marks r⟩ := by
  constructor
  case clean => exact h.clean.markRequest hcareful
  case sending =>
    intro r₀ hr₀
    rcases List.mem_cons.mp hr₀ with rfl | hr₀
    · exact hsending r₀ (List.mem_singleton_self r₀)
    · exact h.sending r₀ hr₀
  case marked =>
    intro r₀ hr₀ hprivate
    rcases List.mem_cons.mp hr₀ with rfl | hr₀
    · exact marked_of_private hprivate
    · exact mem_markRequest_of_mem (h.marked r₀ hr₀ hprivate) (hidle r₀ hr₀)
  case distinct =>
    refine List.nodup_cons.mpr ⟨fun hr => ?_, h.distinct⟩
    obtain ⟨r₀, hr₀, heq⟩ := List.mem_map.mp hr
    exact hidle r₀ hr₀ heq
  case known => exact h.known
  case knownRequests => exact List.forall_mem_cons.mpr ⟨hknown, h.knownRequests⟩
  case knownMarks =>
    intro k hk
    rcases mem_markRequest hk with hk | ⟨-, rfl | ⟨b, hb, rfl⟩⟩
    · exact h.knownMarks k hk
    · exact hknown
    · exact hprompts b hb

/-- A retry or a regeneration: a request for a message that is there. -/
theorem Inv.relaunch (h : Inv ⟨p, marks⟩) (now : JsString) (hrelaunch : Relaunch p action r)
    (hcareful : isPrivate r = true → Unstored p.state r.conversationId) :
    Inv ⟨{ p.dispatch now action with requests := r :: p.requests }, markRequest marks r⟩ := by
  obtain ⟨c, hc, m, hm, hstatus, hbefore, hcid, hmid, hreducer⟩ := hrelaunch
  have hupdates : Updates p.state (p.dispatch now action).state (place r)
      (requested r.settings) := by
    rw [Page.dispatch, hreducer]
    exact updates_message fun _ => rfl
  -- a pending request would have its message on its way
  have hidle : ∀ r₀ ∈ p.requests, place r₀ ≠ place r := by
    intro r₀ hr₀ heq
    refine hstatus (h.sending r₀ hr₀ c hc m hm ?_)
    rw [heq, place, hcid, hmid]
  have hknown : r.messageId ∈ p.ids := by
    rw [hmid]
    exact h.known c hc m hm
  have hupdated := h.update hupdates fun _ _ _ _ _ => rfl
  refine hupdated.request (fun hp => hupdates.unstored (hcareful hp)) ?_ hidle hknown
    fun b hb => h.known c hc b (hbefore b hb)
  exact hupdates.sending_of_requested

/-- Two new messages, with no request for them. -/
theorem Inv.append (h : Inv ⟨p, marks⟩) {user assistant : ChatMessage} {conversationId : String}
    (hfresh : p.Fresh user.id assistant.id)
    (happends : Appends p.state s' conversationId user assistant) :
    Inv ⟨{ p with state := s', ids := user.id :: assistant.id :: p.ids }, marks⟩ := by
  obtain ⟨huser, hassistant, -⟩ := hfresh
  have hmore : ∀ id ∈ p.ids, id ∈ user.id :: assistant.id :: p.ids :=
    fun id hid => List.mem_cons_of_mem _ (List.mem_cons_of_mem _ hid)
  constructor
  case clean =>
    refine happends.clean h.clean fun _ _ _ _ => ⟨fun hk => ?_, fun hk => ?_⟩
    · exact huser (h.knownMarks _ hk)
    · exact hassistant (h.knownMarks _ hk)
  case sending =>
    refine happends.sending h.sending fun r hr => ⟨fun heq => ?_, fun heq => ?_⟩
    · exact huser (heq ▸ h.knownRequests r hr)
    · exact hassistant (heq ▸ h.knownRequests r hr)
  case marked => exact h.marked
  case distinct => exact h.distinct
  case known => exact happends.known h.known
  case knownRequests => exact fun r hr => hmore _ (h.knownRequests r hr)
  case knownMarks => exact fun k hk => hmore _ (h.knownMarks k hk)

/-- Sending appends two messages and asks for the second one. -/
theorem Inv.send (h : Inv ⟨p, marks⟩) {content : JsString}
    (hsend : sendMessage p now content userId assistantId = some (action, r))
    (hcareful : isPrivate r = true → Unstored p.state r.conversationId) :
    Inv ⟨{ p.dispatch now action with
        requests := r :: p.requests
        ids := userId :: assistantId :: p.ids }, markRequest marks r⟩ := by
  obtain ⟨c, hc, hfresh, rfl, rfl⟩ := sendMessage_eq_some hsend
  have happends := appends_appendUserMessage p.state now c.id
    (userMessage userId (jsTrim content) now)
    (assistantMessage assistantId userId c.settings [] now .sending none)
  refine (h.append hfresh happends).request (fun hp => happends.unstored (hcareful hp)) ?_ ?_ ?_ ?_
  · intro r hr c' hc' m hm hplace
    rw [List.mem_singleton.mp hr] at hplace
    have hmid : m.id = assistantId := congrArg Prod.snd hplace
    obtain ⟨c₀, hc₀, -, -, hmessages⟩ := happends c' hc'
    rcases hmessages m hm with hm | ⟨-, rfl | rfl⟩
    · exact absurd (hmid ▸ h.known c₀ hc₀ m hm) hfresh.2.1
    · exact absurd hmid hfresh.2.2
    · rfl
  -- the ids are fresh, so nobody waits for the new message
  · intro r₀ hr₀ heq
    have hid : r₀.messageId = assistantId := congrArg Prod.snd heq
    exact hfresh.2.1 (hid ▸ h.knownRequests r₀ hr₀)
  · exact List.mem_cons_of_mem _ List.mem_cons_self
  · intro b hb
    rcases List.mem_append.mp hb with hb | hb
    · exact List.mem_cons_of_mem _ (List.mem_cons_of_mem _ (h.known c hc b hb))
    · rw [List.mem_singleton.mp hb]
      exact List.mem_cons_self

/-- A pending request writes into its message. -/
theorem Inv.markWrite (h : Inv ⟨p, marks⟩) (hr : r ∈ p.requests) :
    Inv ⟨p, markWrite marks r⟩ := by
  have hmem : ∀ k, k ∈ PrivateHistory.markWrite marks r ↔ k ∈ marks :=
    fun k => mem_markWrite (h.marked r hr)
  constructor
  case clean => exact fun c hc hmode m hm hk => h.clean c hc hmode m hm ((hmem _).mp hk)
  case sending => exact h.sending
  case marked => exact fun r₀ hr₀ hprivate => (hmem _).mpr (h.marked r₀ hr₀ hprivate)
  case distinct => exact h.distinct
  case known => exact h.known
  case knownRequests => exact h.knownRequests
  case knownMarks => exact fun k hk => h.knownMarks k ((hmem k).mp hk)

/-- A request that is settled is pending no longer, and no other is about its message. -/
theorem Inv.settle (h : Inv ⟨p, marks⟩) {n : Nat} (hr : p.requests[n]? = some r)
    {f : ChatMessage → ChatMessage} (hupdates : Updates p.state s' (place r) f) :
    Inv ⟨{ p with state := s', requests := p.requests.eraseIdx n }, marks⟩ := by
  have hsub : ∀ r₀ ∈ p.requests.eraseIdx n, r₀ ∈ p.requests := (List.eraseIdx_sublist _ n).subset
  have hother : ∀ r₀ ∈ p.requests.eraseIdx n, place r₀ ≠ place r := by
    intro r₀ hr₀ heq
    obtain ⟨i, hi, hr₀⟩ := List.mem_eraseIdx_iff_getElem?.mp hr₀
    -- two requests about one message would be the same one
    have hplaces : (p.requests.map place)[i]? = (p.requests.map place)[n]? := by
      rw [List.getElem?_map, List.getElem?_map, hr₀, hr, Option.map_some, Option.map_some, heq]
    have hlt : i < (p.requests.map place).length := by
      rw [List.length_map]
      exact (List.getElem?_eq_some_iff.mp hr₀).1
    exact hi ((List.getElem?_inj hlt h.distinct).mp hplaces)
  have hdropped : Inv ⟨{ p with requests := p.requests.eraseIdx n }, marks⟩ := by
    constructor
    case clean => exact h.clean
    case sending => exact fun r₀ hr₀ => h.sending r₀ (hsub r₀ hr₀)
    case marked => exact fun r₀ hr₀ => h.marked r₀ (hsub r₀ hr₀)
    case distinct => exact h.distinct.sublist ((List.eraseIdx_sublist _ n).map _)
    case known => exact h.known
    case knownRequests => exact fun r₀ hr₀ => h.knownRequests r₀ (hsub r₀ hr₀)
    case knownMarks => exact h.knownMarks
  exact hdropped.update hupdates fun r₀ hr₀ heq => absurd heq (hother r₀ hr₀)

end Step

/-- One careful event. -/
theorem Inv.step {t t' : Tracked} {now : JsString} {e : UiEvent} (h : Inv t)
    (hcareful : Careful t now e) (hstep : t.step now e = some t') : Inv t' := by
  obtain ⟨p, marks⟩ := t
  obtain ⟨p', hp', rfl⟩ := Option.map_eq_some_iff.mp hstep
  cases e with
  | createConversation id =>
    obtain rfl := Option.some.inj hp'
    refine h.quiet (quiet_of_subset fun c hc => ?_)
    rcases List.mem_cons.mp hc with rfl | hc
    · exact Or.inl rfl
    · exact Or.inr hc
  | selectConversation conversationId =>
    obtain rfl := Option.some.inj hp'
    refine h.quiet (quiet_of_subset fun c hc => Or.inr ?_)
    simp only [conversationReducer] at hc
    split at hc
    · exact hc
    · exact hc
  | renameConversation conversationId title =>
    obtain rfl := Option.some.inj hp'
    refine h.quiet ?_
    simp only [conversationReducer]
    split
    · exact quiet_of_subset fun c hc => Or.inr hc
    · exact quiet_withConversation (fun _ => rfl) (fun _ => rfl) fun _ _ _ => Or.inl
  | deleteConversation conversationId =>
    obtain rfl := Option.some.inj hp'
    exact h.quiet (quiet_of_subset fun c hc => Or.inr (List.mem_filter.mp hc).1)
  | updateSettings patch =>
    obtain ⟨c, -, rfl⟩ := Option.map_eq_some_iff.mp hp'
    refine h.quiet (quiet_withConversation (fun _ => rfl) (fun _ => rfl) fun c' _ _ hmode => ?_)
    simp only at hmode
    split at hmode
    · cases hmode
    · exact Or.inl hmode
  | setStorageMode storageMode =>
    obtain ⟨c, hc, rfl⟩ := Option.map_eq_some_iff.mp hp'
    have hactive := (Option.filter_eq_some_iff.mp hc).1
    refine h.quiet (quiet_withConversation (fun _ => rfl) (fun _ => rfl)
      fun c' hc' hid hmode => Or.inr ?_)
    -- only this event makes a conversation persistent
    obtain rfl : storageMode = .persistent := hmode
    exact hcareful.1 rfl c hactive c' hc' hid
  | clearAll =>
    obtain rfl := Option.some.inj hp'
    exact h.quiet fun c hc => absurd hc List.not_mem_nil
  | sendMessage content userId assistantId =>
    obtain ⟨⟨action, r⟩, hsend, rfl⟩ := Option.map_eq_some_iff.mp hp'
    have hsent := h.send hsend (hcareful.2 (action, r) hsend)
    simpa only [track, launch, hsend] using hsent
  | retryRequest messageId =>
    obtain ⟨⟨action, r⟩, hretry, rfl⟩ := Option.map_eq_some_iff.mp hp'
    have hsent := h.relaunch now (retryRequest_eq_some hretry) (hcareful.2 (action, r) hretry)
    simpa only [track, launch, hretry] using hsent
  | regenerateLast =>
    obtain ⟨⟨action, r⟩, hregenerate, rfl⟩ := Option.map_eq_some_iff.mp hp'
    have hsent := h.relaunch now (regenerateLast_eq_some hregenerate)
      (hcareful.2 (action, r) hregenerate)
    simpa only [track, launch, hregenerate] using hsent
  | loadFixture answer card userId assistantId =>
    obtain ⟨action, hfixture, rfl⟩ := Option.map_eq_some_iff.mp hp'
    obtain ⟨c, hfresh, rfl⟩ := loadFixture_eq_some hfixture
    exact h.append hfresh (appends_appendUserMessage p.state now c.id _ _)
  | delta n delta =>
    obtain ⟨r, hr, hp'⟩ := Option.bind_eq_some_iff.mp hp'
    obtain rfl := Option.some.inj hp'
    simp only [track, hr]
    exact (h.markWrite (List.mem_of_getElem? hr)).update (updates_message fun _ => rfl)
      fun _ _ _ _ hstatus => hstatus
  | complete n answer card warning =>
    obtain ⟨r, hr, hp'⟩ := Option.bind_eq_some_iff.mp hp'
    obtain rfl := Option.some.inj hp'
    simp only [track, hr]
    exact (h.markWrite (List.mem_of_getElem? hr)).settle hr (updates_message fun _ => rfl)
  | fail n error =>
    obtain ⟨r, hr, hp'⟩ := Option.bind_eq_some_iff.mp hp'
    obtain rfl := Option.some.inj hp'
    exact h.settle hr (updates_message fun _ => rfl)
  | cancelled n =>
    obtain ⟨r, hr, hp'⟩ := Option.bind_eq_some_iff.mp hp'
    obtain rfl := Option.some.inj hp'
    exact h.settle hr (updates_message fun _ => rfl)

/-! ## Every run -/

/-- At the start nothing is marked and nothing is pending. -/
theorem inv_load {stored : Option Persisted} (h : restoredMarks (restoreState stored) = []) :
    Inv (load stored) := by
  constructor
  case clean =>
    intro c _ _ m _ hk
    rw [load, h] at hk
    cases hk
  case sending => exact fun r hr => absurd hr List.not_mem_nil
  case marked => exact fun r hr => absurd hr List.not_mem_nil
  case distinct => exact List.nodup_nil
  case known => exact fun c hc m hm => List.mem_flatMap.mpr ⟨c, hc, List.mem_map_of_mem hm⟩
  case knownRequests => exact fun r hr => absurd hr List.not_mem_nil
  case knownMarks =>
    intro k hk
    rw [load, h] at hk
    cases hk

/-- What is written are the persistent conversations, and they hold no mark. -/
theorem Inv.unwritten {t : Tracked} (h : Inv t) : Unwritten t := by
  intro written hwritten c hc m hm
  simp only [persistEffect, Option.mem_def, Option.ite_none_right_eq_some] at hwritten
  obtain ⟨-, hstored⟩ := hwritten
  obtain rfl := Option.some.inj hstored
  obtain ⟨hc, hmode⟩ := List.mem_filter.mp hc
  exact h.clean c hc (of_decide_eq_true hmode) m hm

/-- The marks restrict no run of the page. -/
theorem visit_of_run {stored : Option Persisted} {us : List (Page × (JsString × UiEvent) × Page)}
    {p : Page} (h : Run (fun p l p' => Web.step p l.1 l.2 = some p') (loadPage stored) us p) :
    ∃ ts t, Visit stored ts t ∧ t.page = p ∧
      ts.map (fun u => (u.1.page, u.2.1, u.2.2.page)) = us := by
  induction h with
  | refl => exact ⟨[], load stored, .refl, rfl, rfl⟩
  | @tail p p' l us _ hstep ih =>
    obtain ⟨ts, t, hvisit, rfl, rfl⟩ := ih
    have htracked : t.step l.1 l.2 = some ⟨p', track t.marks t.page l.1 l.2⟩ := by
      rw [Tracked.step, hstep, Option.map_some]
    exact ⟨_, _, hvisit.tail htracked, rfl, by simp⟩

/-- The transitions that some events make. -/
def play (t : Tracked) :
    List (JsString × UiEvent) → Option (List (Tracked × (JsString × UiEvent) × Tracked) × Tracked)
  | [] => some ([], t)
  | l :: ls => do
    let t' ← t.step l.1 l.2
    let (ts, t'') ← play t' ls
    return ((t, l, t') :: ts, t'')

theorem run_of_play {t t' : Tracked} {ls : List (JsString × UiEvent)}
    {ts : List (Tracked × (JsString × UiEvent) × Tracked)} (h : play t ls = some (ts, t')) :
    Run (fun t l t' => t.step l.1 l.2 = some t') t ts t' := by
  induction ls generalizing t ts with
  | nil =>
    obtain ⟨rfl, rfl⟩ := Prod.mk.inj (Option.some.inj h)
    exact .refl
  | cons l ls ih =>
    obtain ⟨t₁, hstep, h⟩ := Option.bind_eq_some_iff.mp h
    obtain ⟨⟨us, t₂⟩, hplay, h⟩ := Option.bind_eq_some_iff.mp h
    obtain ⟨rfl, rfl⟩ := Prod.mk.inj (Option.some.inj h)
    exact Run.head hstep (ih hplay)

/-- What a check of the transitions finds. -/
theorem visit_of_check {stored : Option Persisted} {ls : List (JsString × UiEvent)}
    {check : List (Tracked × (JsString × UiEvent) × Tracked) → Tracked → Bool}
    (h : (play (load stored) ls).any (fun x => check x.1 x.2) = true) :
    ∃ ts t, Visit stored ts t ∧ check ts t = true := by
  obtain ⟨⟨ts, t⟩, hplay, hcheck⟩ := (Option.any_eq_true _ _).mp h
  exact ⟨ts, t, run_of_play hplay, hcheck⟩

/-- No settings but the privacy. -/
def privacyPatch (privacy : Privacy) : SettingsPatch := ⟨none, none, some privacy, none, none⟩

/-- **A careful visit stores no private message.** -/
theorem unwritten_of_careful {stored : Option Persisted}
    {ts : List (Tracked × (JsString × UiEvent) × Tracked)} {t : Tracked}
    (hrestored : restoredMarks (restoreState stored) = []) (h : Visit stored ts t)
    (hcareful : ∀ u ∈ ts, Careful u.1 u.2.1.1 u.2.1.2) : Unwritten t := by
  have hinv : Inv t := (h.restrict hcareful).invariant (inv_load hrestored)
    fun _ _ _ hinv hstep => hinv.step hstep.1 hstep.2
  exact hinv.unwritten

/-- A private question and its answer. -/
def privateTalk : List (JsString × UiEvent) :=
  [([], .createConversation "c"), ([], .updateSettings (privacyPatch .high)),
    ([], .sendMessage (js "q") "u" "a"), ([], .complete 0 (js "r") none none)]

/-- The talk, and then the history is saved after the privacy is back to standard. -/
def savedTalk : List (JsString × UiEvent) :=
  privateTalk ++ [([], .updateSettings (privacyPatch .standard)),
    ([], .setStorageMode .persistent)]

/-- A stored conversation with `privacy=high`, which the schema lets pass. -/
def privateConversation : Conversation :=
  { createConversation "c" [] with settings := { defaultSettings with privacy := .high } }

theorem privateConversation_persistent :
    ∀ c ∈ [privateConversation], c.storageMode = .persistent := by
  simp [privateConversation, createConversation]

def storedPrivate : Persisted where
  activeConversationId := some "c"
  conversations := [privateConversation]
  persistent := privateConversation_persistent

/-- A private question in a conversation that is stored. -/
def storedTalk : List (JsString × UiEvent) :=
  [([], .sendMessage (js "q") "u" "a"), ([], .complete 0 (js "r") none none)]

/-- What the three visits come to. -/
theorem talks_checked :
    (play (load none) privateTalk).any (fun x =>
      (∀ u ∈ x.1, Careful u.1 u.2.1.1 u.2.1.2) && x.2.marks ≠ []) = true ∧
    (play (load none) savedTalk).any (fun x => ¬ Unwritten x.2) = true ∧
    (play (load (some storedPrivate)) storedTalk).any (fun x => ¬ Unwritten x.2) = true := by
  decide +kernel

/-- A careful visit that does have private messages. -/
theorem privateTalk_unwritten : ∃ ts t, Visit none ts t ∧ t.marks ≠ [] ∧ Unwritten t := by
  obtain ⟨ts, t, hvisit, hcheck⟩ := @visit_of_check none privateTalk
    (fun ts t => (∀ u ∈ ts, Careful u.1 u.2.1.1 u.2.1.2) && t.marks ≠ []) talks_checked.1
  rw [Bool.and_eq_true, decide_eq_true_eq, decide_eq_true_eq] at hcheck
  exact ⟨ts, t, hvisit, hcheck.2, unwritten_of_careful rfl hvisit hcheck.1⟩

/-- The same talk, stored because the storage is switched on afterwards. -/
theorem privateTalk_saved : ∃ ts t, Visit none ts t ∧ ¬ Unwritten t := by
  obtain ⟨ts, t, hvisit, hcheck⟩ :=
    @visit_of_check none savedTalk (fun _ t => ¬ Unwritten t) talks_checked.2.1
  exact ⟨ts, t, hvisit, of_decide_eq_true hcheck⟩

/-- Nor may a private message be sent in a conversation that is stored. -/
example : restoredMarks (restoreState (some storedPrivate)) = [] ∧
    ∃ ts t, Visit (some storedPrivate) ts t ∧ ¬ Unwritten t := by
  refine ⟨rfl, ?_⟩
  obtain ⟨ts, t, hvisit, hcheck⟩ :=
    @visit_of_check (some storedPrivate) storedTalk (fun _ t => ¬ Unwritten t) talks_checked.2.2
  exact ⟨ts, t, hvisit, of_decide_eq_true hcheck⟩

end PolyGate.Web.PrivateHistory
