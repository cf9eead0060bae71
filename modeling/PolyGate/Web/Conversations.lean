import Mathlib.Data.Option.Basic
import PolyGate.Lib.PyFloat
import PolyGate.Lib.Run
import PolyGate.Web.GatewayClient

/-!
# `Web/Conversations.lean` — the conversations of the browser

The types of `web/src/domain/conversation.ts`, `conversationReducer`, what `restoreState` and
`persistState` of `web/src/storage/local-conversations.ts` do with the conversations, and the
callbacks of `ConversationProvider.tsx` with the actions they dispatch.

An event of the page is a callback with what it is given, or an answer of the gateway to a request
that is pending. The checks of the composer (nothing pending, at most 8,000 characters) are left
out, so are the effects that only read. A JavaScript string is the list of its code units; the clock
and the generated ids come with the event.
-/

namespace PolyGate.Web

open Lib

abbrev JsString := List (Fin 0x10000)

/-- A string of characters that are one code unit each. -/
def js (s : String) : JsString := s.toList.map fun c => Fin.ofNat 0x10000 c.toNat

/-! ## The domain -/

inductive MessageRole | system | user | assistant
  deriving DecidableEq, Repr

inductive MessageStatus | sending | complete | error | cancelled
  deriving DecidableEq, Repr

inductive StorageMode | persistent | ephemeral
  deriving DecidableEq, Repr

inductive Quality | balanced | high | cheap
  deriving DecidableEq, Repr

inductive Privacy | standard | high
  deriving DecidableEq, Repr

structure RoutingSettings where
  model : JsString
  quality : Quality
  privacy : Privacy
  maxCostUsd : PyFloat
  latencyTargetMs : PyFloat
  deriving DecidableEq

structure TokenUsage where
  input : PyFloat
  output : PyFloat
  deriving DecidableEq

inductive CardOutcome | success | cacheHit | cancelled | partialError
  deriving DecidableEq, Repr

structure DecisionCardData where
  chosenProvider : JsString
  reason : JsString
  cacheHit : Bool
  costEstimateUsd : PyFloat
  latencyMs : PyFloat
  tokens : TokenUsage
  retries : PyFloat
  failoverFrom : Option JsString
  requestId : JsString
  outcome : Option CardOutcome
  initialProvider : Option JsString
  failoverCount : Option PyFloat
  stream : Option Bool
  createdAt : Option JsString
  expiresAt : Option JsString
  deriving DecidableEq

inductive MessageErrorKind
  | auth | network | routing | provider | timeout | budget | rateLimit | validation | partialAnswer
  | decision | unknown
  deriving DecidableEq, Repr

structure MessageError where
  kind : MessageErrorKind
  message : JsString
  status : Option PyFloat
  requestId : Option JsString
  deriving DecidableEq

structure ChatMessage where
  id : String
  role : MessageRole
  content : JsString
  createdAt : JsString
  status : MessageStatus
  requestSettings : Option RoutingSettings
  decisionCard : Option DecisionCardData
  error : Option MessageError
  warning : Option MessageError
  parentUserMessageId : Option String
  deriving DecidableEq

structure Conversation where
  id : String
  title : JsString
  createdAt : JsString
  updatedAt : JsString
  settings : RoutingSettings
  messages : List ChatMessage
  storageMode : StorageMode
  deriving DecidableEq

structure ConversationState where
  conversations : List Conversation
  activeConversationId : Option String
  hydrated : Bool
  deriving DecidableEq

/-- `DEFAULT_SETTINGS` -/
def defaultSettings : RoutingSettings where
  model := js "auto"
  quality := .balanced
  privacy := .standard
  maxCostUsd := .ofRat (2 / 1000)
  latencyTargetMs := .ofRat 3000

/-- `createConversation()` -/
def createConversation (id : String) (now : JsString) : Conversation where
  id := id
  title := js "新会话"
  createdAt := now
  updatedAt := now
  settings := defaultSettings
  messages := []
  storageMode := .persistent

/-- `s.trim()` -/
def jsTrim (s : JsString) : JsString :=
  (s.dropWhile fun p => p.val ∈ trimmed).rdropWhile fun p => p.val ∈ trimmed

/-- `s.replace(/\s+/g, " ")`; whether white space stands before `s`. -/
def collapse (after : Bool) : JsString → JsString
  | [] => []
  | p :: s =>
    if p.val ∈ trimmed then if after then collapse true s else js " " ++ collapse true s
    else p :: collapse false s

def titleFromPrompt (prompt : JsString) : JsString :=
  let oneLine := jsTrim (collapse false prompt)
  if 28 < oneLine.length then oneLine.take 28 ++ js "…"
  else if oneLine = [] then js "新会话"
  else oneLine

/-! ## `conversationReducer` -/

/-- `Partial<RoutingSettings>` -/
structure SettingsPatch where
  model : Option JsString
  quality : Option Quality
  privacy : Option Privacy
  maxCostUsd : Option PyFloat
  latencyTargetMs : Option PyFloat

/-- `{ ...settings, ...patch }` -/
def SettingsPatch.apply (patch : SettingsPatch) (settings : RoutingSettings) : RoutingSettings where
  model := patch.model.getD settings.model
  quality := patch.quality.getD settings.quality
  privacy := patch.privacy.getD settings.privacy
  maxCostUsd := patch.maxCostUsd.getD settings.maxCostUsd
  latencyTargetMs := patch.latencyTargetMs.getD settings.latencyTargetMs

/-- `RESTORE_PERSISTED_STATE` is not here: nothing dispatches it. -/
inductive ConversationAction
  | createConversation (conversation : Conversation)
  | selectConversation (conversationId : String)
  | renameConversation (conversationId : String) (title : JsString)
  | deleteConversation (conversationId : String)
  | updateSettings (conversationId : String) (settings : SettingsPatch)
  | setStorageMode (conversationId : String) (storageMode : StorageMode)
  | appendUserMessage (conversationId : String) (userMessage assistantMessage : ChatMessage)
  | startRequest (conversationId messageId : String) (settings : RoutingSettings)
  | appendResponseDelta (conversationId messageId : String) (delta : JsString)
  | completeRequest (conversationId messageId : String) (content : JsString)
      (decisionCard : Option DecisionCardData) (warning : Option MessageError)
  | failRequest (conversationId messageId : String) (error : MessageError)
  | cancelRequest (conversationId messageId : String)
  | retryRequest (conversationId messageId : String) (settings : RoutingSettings)
  | regenerateResponse (conversationId messageId : String) (settings : RoutingSettings)
  | clearAllConversations

def withConversation (state : ConversationState) (conversationId : String)
    (update : Conversation → Conversation) : ConversationState :=
  { state with
    conversations := state.conversations.map fun c =>
      if c.id = conversationId then update c else c }

def updateMessage (now : JsString) (conversation : Conversation) (messageId : String)
    (update : ChatMessage → ChatMessage) : Conversation :=
  { conversation with
    updatedAt := now
    messages := conversation.messages.map fun m => if m.id = messageId then update m else m }

/-- A message that is requested, once more or for the first time. -/
def requested (settings : RoutingSettings) (message : ChatMessage) : ChatMessage :=
  { message with
    content := []
    status := .sending
    requestSettings := some settings
    decisionCard := none
    error := none
    warning := none }

def conversationReducer (now : JsString) (state : ConversationState) :
    ConversationAction → ConversationState
  | .createConversation conversation =>
    { state with
      conversations := conversation :: state.conversations
      activeConversationId := some conversation.id }
  | .selectConversation conversationId =>
    if state.conversations.any (·.id = conversationId) then
      { state with activeConversationId := some conversationId }
    else state
  | .renameConversation conversationId title =>
    if jsTrim title = [] then state
    else withConversation state conversationId fun c =>
      { c with title := jsTrim title, updatedAt := now }
  | .deleteConversation conversationId =>
    let conversations := state.conversations.filter (·.id ≠ conversationId)
    { state with
      conversations := conversations
      activeConversationId :=
        if state.activeConversationId = some conversationId then conversations.head?.map (·.id)
        else state.activeConversationId }
  | .updateSettings conversationId patch =>
    withConversation state conversationId fun c =>
      { c with
        settings := patch.apply c.settings
        storageMode := if patch.privacy = some .high then .ephemeral else c.storageMode
        updatedAt := now }
  | .setStorageMode conversationId storageMode =>
    withConversation state conversationId fun c =>
      { c with storageMode := storageMode, updatedAt := now }
  | .appendUserMessage conversationId userMessage assistantMessage =>
    withConversation state conversationId fun c =>
      { c with
        title := if c.messages.length = 0 then titleFromPrompt userMessage.content else c.title
        updatedAt := userMessage.createdAt
        messages := c.messages ++ [userMessage, assistantMessage] }
  | .startRequest conversationId messageId settings
  | .retryRequest conversationId messageId settings
  | .regenerateResponse conversationId messageId settings =>
    withConversation state conversationId fun c =>
      updateMessage now c messageId (requested settings)
  | .appendResponseDelta conversationId messageId delta =>
    withConversation state conversationId fun c =>
      updateMessage now c messageId fun m => { m with content := m.content ++ delta }
  | .completeRequest conversationId messageId content decisionCard warning =>
    withConversation state conversationId fun c =>
      updateMessage now c messageId fun m =>
        { m with
          content := content
          status := .complete
          decisionCard := decisionCard
          error := none
          warning := warning }
  | .failRequest conversationId messageId error =>
    withConversation state conversationId fun c =>
      updateMessage now c messageId fun m => { m with status := .error, error := some error }
  | .cancelRequest conversationId messageId =>
    withConversation state conversationId fun c =>
      updateMessage now c messageId fun m => { m with status := .cancelled, error := none }
  | .clearAllConversations => ⟨[], none, true⟩

/-! ## The storage -/

/-- What `persistedSchema` lets pass. -/
structure Persisted where
  activeConversationId : Option String
  conversations : List Conversation
  persistent : ∀ c ∈ conversations, c.storageMode = .persistent

/-- A message whose request did not survive. -/
def restoredMessage (m : ChatMessage) : ChatMessage :=
  if m.status = .sending then { m with status := .cancelled } else m

/-- `restoreState`, from what is stored, if that is valid. -/
def restoreState : Option Persisted → ConversationState
  | none => ⟨[], none, true⟩
  | some p =>
    let conversations := p.conversations.map fun c =>
      { c with messages := c.messages.map restoredMessage }
    { conversations := conversations
      activeConversationId :=
        if conversations.any fun c => some c.id = p.activeConversationId then p.activeConversationId
        else conversations.head?.map (·.id)
      hydrated := true }

/-- The conversations that `persistState` stores. -/
def persistState (state : ConversationState) : List Conversation :=
  state.conversations.filter (·.storageMode = .persistent)

/-- The effect that stores: what it writes, unless a message is on its way. -/
def persistEffect (state : ConversationState) : Option (List Conversation) :=
  let hasActiveStream := state.conversations.any fun c => c.messages.any (·.status = .sending)
  if state.hydrated ∧ ¬ hasActiveStream then some (persistState state) else none

/-! ## `ConversationProvider` -/

structure GatewayMessage where
  role : MessageRole
  content : JsString

/-- The body of a request; `stream` and `include_usage` are always set. -/
structure GatewayRequest where
  model : JsString
  messages : List GatewayMessage
  quality : Quality
  privacy : Privacy
  maxCostUsd : PyFloat
  latencyTargetMs : PyFloat

def messagesForGateway (messages : List ChatMessage) : List GatewayMessage :=
  (messages.filter fun m => m.status = .complete && jsTrim m.content ≠ []).map fun m =>
    ⟨m.role, m.content⟩

def gatewayPayload (settings : RoutingSettings) (messages : List ChatMessage) : GatewayRequest where
  model := settings.model
  messages := messagesForGateway messages
  quality := settings.quality
  privacy := settings.privacy
  maxCostUsd := settings.maxCostUsd
  latencyTargetMs := settings.latencyTargetMs

/-- A call of `runRequest`. -/
structure Request where
  conversationId : String
  messageId : String
  settings : RoutingSettings
  requestMessages : List ChatMessage

/-- What is sent. -/
def Request.payload (r : Request) : GatewayRequest := gatewayPayload r.settings r.requestMessages

/-- The page: its state, the requests that are pending, and the message ids that were ever used. -/
structure Page where
  state : ConversationState
  requests : List Request
  ids : List String

namespace Page

def active (p : Page) : Option Conversation :=
  p.state.activeConversationId.bind fun id => p.state.conversations.find? (·.id = id)

def dispatch (p : Page) (now : JsString) (action : ConversationAction) : Page :=
  { p with state := conversationReducer now p.state action }

/-- The ids are two new ones. -/
def Fresh (p : Page) (userId assistantId : String) : Prop :=
  userId ∉ p.ids ∧ assistantId ∉ p.ids ∧ userId ≠ assistantId

instance (p : Page) (userId assistantId : String) : Decidable (p.Fresh userId assistantId) :=
  inferInstanceAs (Decidable (_ ∧ _ ∧ _))

end Page

def userMessage (id : String) (content now : JsString) : ChatMessage where
  id := id
  role := .user
  content := content
  createdAt := now
  status := .complete
  requestSettings := none
  decisionCard := none
  error := none
  warning := none
  parentUserMessageId := none

def assistantMessage (id parentId : String) (settings : RoutingSettings) (content now : JsString)
    (status : MessageStatus) (card : Option DecisionCardData) : ChatMessage where
  id := id
  role := .assistant
  content := content
  createdAt := now
  status := status
  requestSettings := some settings
  decisionCard := card
  error := none
  warning := none
  parentUserMessageId := some parentId

inductive UiEvent
  | createConversation (id : String)
  | selectConversation (conversationId : String)
  | renameConversation (conversationId : String) (title : JsString)
  | deleteConversation (conversationId : String)
  | updateSettings (settings : SettingsPatch)
  | setStorageMode (storageMode : StorageMode)
  | clearAll
  | sendMessage (content : JsString) (userId assistantId : String)
  | retryRequest (messageId : String)
  | regenerateLast
  /-- the answer of `/fixtures/decision-card.example.json` -/
  | loadFixture (answer : JsString) (card : Option DecisionCardData) (userId assistantId : String)
  -- what the `n`th pending request comes to
  | delta (n : Nat) (delta : JsString)
  | complete (n : Nat) (answer : JsString) (card : Option DecisionCardData)
      (warning : Option MessageError)
  | fail (n : Nat) (error : MessageError)
  | cancelled (n : Nat)

section Provider
variable (p : Page) (now : JsString)

/-- `sendMessage` -/
def sendMessage (content : JsString) (userId assistantId : String) :
    Option (ConversationAction × Request) := do
  let conversation ← p.active
  let prompt := jsTrim content
  guard (prompt ≠ [] ∧ p.Fresh userId assistantId)
  let user := userMessage userId prompt now
  let assistant := assistantMessage assistantId userId conversation.settings [] now .sending none
  return (.appendUserMessage conversation.id user assistant,
    ⟨conversation.id, assistantId, conversation.settings, conversation.messages ++ [user]⟩)

/-- `retryRequest` -/
def retryRequest (messageId : String) : Option (ConversationAction × Request) := do
  let conversation ← p.state.conversations.find? fun c => c.messages.any (·.id = messageId)
  let message ← conversation.messages.find? (·.id = messageId)
  guard (message.role = .assistant ∧ (message.status = .error ∨ message.status = .cancelled))
  return (.retryRequest conversation.id messageId conversation.settings,
    ⟨conversation.id, messageId, conversation.settings,
      conversation.messages.takeWhile (·.id ≠ messageId)⟩)

/-- `findLastIndex(({ role }) => role === "assistant")`: what stands before that message, and it. -/
def lastAssistant (messages : List ChatMessage) : Option (List ChatMessage × ChatMessage) :=
  match messages.reverse.dropWhile (·.role ≠ .assistant) with
  | message :: before => some (before.reverse, message)
  | [] => none

/-- `regenerateLast` -/
def regenerateLast : Option (ConversationAction × Request) := do
  let conversation ← p.active
  let (before, message) ← lastAssistant conversation.messages
  guard (message.status = .complete ∧ ¬ p.requests.any (·.messageId = message.id))
  return (.regenerateResponse conversation.id message.id conversation.settings,
    ⟨conversation.id, message.id, conversation.settings, before⟩)

/-- What the callback of an event that asks the gateway dispatches first, and its request. -/
def launch : UiEvent → Option (ConversationAction × Request)
  | .sendMessage content userId assistantId => sendMessage p now content userId assistantId
  | .retryRequest messageId => retryRequest p messageId
  | .regenerateLast => regenerateLast p
  | _ => none

/-- `loadFixture` -/
def loadFixture (answer : JsString) (card : Option DecisionCardData) (userId assistantId : String) :
    Option ConversationAction := do
  let conversation ← p.active
  guard (p.Fresh userId assistantId)
  return .appendUserMessage conversation.id
    (userMessage userId (js "展示一条 PolyGate 离线演示回答") now)
    (assistantMessage assistantId userId conversation.settings answer now .complete card)

/-- The storage toggle is enabled unless the active conversation is a private one. -/
def toggleEnabled : Option Conversation := p.active.filter (·.settings.privacy ≠ .high)

/-- The action that settles a pending request, which is then no longer pending. -/
def settle (n : Nat) (action : Request → ConversationAction) : Option Page := do
  let r ← p.requests[n]?
  return { p.dispatch now (action r) with requests := p.requests.eraseIdx n }

/-- One event; `none` if the callback dispatches nothing, or the event cannot happen. -/
def step : UiEvent → Option Page
  | .createConversation id => p.dispatch now (.createConversation (createConversation id now))
  | .selectConversation conversationId => p.dispatch now (.selectConversation conversationId)
  | .renameConversation conversationId title =>
    p.dispatch now (.renameConversation conversationId title)
  | .deleteConversation conversationId => p.dispatch now (.deleteConversation conversationId)
  | .updateSettings settings =>
    p.active.map fun c => p.dispatch now (.updateSettings c.id settings)
  | .setStorageMode storageMode =>
    (toggleEnabled p).map fun c => p.dispatch now (.setStorageMode c.id storageMode)
  | .clearAll => p.dispatch now .clearAllConversations
  | .sendMessage content userId assistantId =>
    (sendMessage p now content userId assistantId).map fun (action, r) =>
      { p.dispatch now action with
        requests := r :: p.requests
        ids := userId :: assistantId :: p.ids }
  | .retryRequest messageId =>
    (retryRequest p messageId).map fun (action, r) =>
      { p.dispatch now action with requests := r :: p.requests }
  | .regenerateLast =>
    (regenerateLast p).map fun (action, r) =>
      { p.dispatch now action with requests := r :: p.requests }
  | .loadFixture answer card userId assistantId =>
    (loadFixture p now answer card userId assistantId).map fun action =>
      { p.dispatch now action with ids := userId :: assistantId :: p.ids }
  | .delta n delta => do
    let r ← p.requests[n]?
    return p.dispatch now (.appendResponseDelta r.conversationId r.messageId delta)
  | .complete n answer card warning =>
    settle p now n fun r => .completeRequest r.conversationId r.messageId answer card warning
  | .fail n error => settle p now n fun r => .failRequest r.conversationId r.messageId error
  | .cancelled n => settle p now n fun r => .cancelRequest r.conversationId r.messageId

end Provider

/-- The page after it is loaded. -/
def loadPage (stored : Option Persisted) : Page :=
  let state := restoreState stored
  ⟨state, [], state.conversations.flatMap fun c => c.messages.map (·.id)⟩

/-! ## What the callbacks dispatch -/

section Callbacks
variable {p : Page} {now : JsString} {action : ConversationAction} {r : Request}

theorem mem_of_active {c : Conversation} (h : p.active = some c) : c ∈ p.state.conversations := by
  obtain ⟨id, -, hfind⟩ := Option.bind_eq_some_iff.mp h
  exact List.mem_of_find?_eq_some hfind

theorem sendMessage_eq_some {content : JsString} {userId assistantId : String}
    (h : sendMessage p now content userId assistantId = some (action, r)) :
    ∃ c ∈ p.state.conversations, p.Fresh userId assistantId ∧
      let user := userMessage userId (jsTrim content) now
      action = .appendUserMessage c.id user
        (assistantMessage assistantId userId c.settings [] now .sending none) ∧
      r = ⟨c.id, assistantId, c.settings, c.messages ++ [user]⟩ := by
  obtain ⟨c, hactive, h⟩ := Option.bind_eq_some_iff.mp h
  obtain ⟨_, hguard, h⟩ := Option.bind_eq_some_iff.mp h
  obtain ⟨-, hfresh⟩ := (Option.guard_eq_some' _).mp hguard
  obtain ⟨rfl, rfl⟩ := Prod.mk.inj (Option.some.inj h)
  exact ⟨c, mem_of_active hactive, hfresh, rfl, rfl⟩

/-- A message that is requested once more: it is not on its way, its conversation's settings and
some of the messages there make the request, and the reducer does to it what `requested` does. -/
def Relaunch (p : Page) (action : ConversationAction) (r : Request) : Prop :=
  ∃ c ∈ p.state.conversations, ∃ m ∈ c.messages, m.status ≠ .sending ∧
    (∀ b ∈ r.requestMessages, b ∈ c.messages) ∧ r.conversationId = c.id ∧ r.messageId = m.id ∧
    ∀ now s, conversationReducer now s action =
      withConversation s r.conversationId fun c =>
        updateMessage now c r.messageId (requested r.settings)

theorem retryRequest_eq_some {messageId : String}
    (h : retryRequest p messageId = some (action, r)) : Relaunch p action r := by
  obtain ⟨c, hfind, h⟩ := Option.bind_eq_some_iff.mp h
  obtain ⟨m, hmessage, h⟩ := Option.bind_eq_some_iff.mp h
  obtain ⟨_, hguard, h⟩ := Option.bind_eq_some_iff.mp h
  obtain ⟨-, hstatus⟩ := (Option.guard_eq_some' _).mp hguard
  obtain ⟨rfl, rfl⟩ := Prod.mk.inj (Option.some.inj h)
  have hid := List.find?_some hmessage
  rw [decide_eq_true_eq] at hid
  refine ⟨c, List.mem_of_find?_eq_some hfind, m, List.mem_of_find?_eq_some hmessage, ?_, ?_, rfl,
    hid.symm, fun _ _ => rfl⟩
  · rcases hstatus with h | h <;> simp [h]
  · exact fun b hb => (List.takeWhile_prefix _).subset hb

theorem lastAssistant_eq_some {messages before : List ChatMessage} {m : ChatMessage}
    (h : lastAssistant messages = some (before, m)) :
    m ∈ messages ∧ ∀ b ∈ before, b ∈ messages := by
  have hsub : ∀ b ∈ messages.reverse.dropWhile (·.role ≠ .assistant), b ∈ messages :=
    fun b hb => List.mem_reverse.mp ((List.dropWhile_suffix _).subset hb)
  unfold lastAssistant at h
  split at h
  · next message rest heq =>
    obtain ⟨rfl, rfl⟩ := Prod.mk.inj (Option.some.inj h)
    rw [heq] at hsub
    exact ⟨hsub _ (by simp), fun b hb => hsub b (List.mem_cons_of_mem _ (List.mem_reverse.mp hb))⟩
  · cases h

theorem regenerateLast_eq_some (h : regenerateLast p = some (action, r)) :
    Relaunch p action r := by
  obtain ⟨c, hactive, h⟩ := Option.bind_eq_some_iff.mp h
  obtain ⟨⟨before, m⟩, hlast, h⟩ := Option.bind_eq_some_iff.mp h
  obtain ⟨_, hguard, h⟩ := Option.bind_eq_some_iff.mp h
  have hstatus := ((Option.guard_eq_some' _).mp hguard).1
  obtain ⟨rfl, rfl⟩ := Prod.mk.inj (Option.some.inj h)
  obtain ⟨hm, hbefore⟩ := lastAssistant_eq_some hlast
  exact ⟨c, mem_of_active hactive, m, hm, by simp [hstatus], hbefore, rfl, rfl, fun _ _ => rfl⟩

theorem loadFixture_eq_some {answer : JsString} {card : Option DecisionCardData}
    {userId assistantId : String}
    (h : loadFixture p now answer card userId assistantId = some action) :
    ∃ c : Conversation, p.Fresh userId assistantId ∧ action = .appendUserMessage c.id
      (userMessage userId (js "展示一条 PolyGate 离线演示回答") now)
      (assistantMessage assistantId userId c.settings answer now .complete card) := by
  obtain ⟨c, -, h⟩ := Option.bind_eq_some_iff.mp h
  obtain ⟨_, hguard, h⟩ := Option.bind_eq_some_iff.mp h
  have hfresh := (Option.guard_eq_some' _).mp hguard
  exact ⟨c, hfresh, (Option.some.inj h).symm⟩

end Callbacks

end PolyGate.Web
