import Mathlib.Data.Rat.Floor
import PolyGate.Lib.Zod
import PolyGate.Web.Conversations

/-!
# `Web/Storage.lean` — the conversations in the storage of the browser

The schemas of `web/src/storage/local-conversations.ts` with `migrate`, `restoreState` and
`persistState` around them, the schemas of `web/src/domain/gateway.ts` that make decision cards, and
the numbers that the two inputs of `RoutingPanel.tsx` make.

What is stored is the value that `JSON.parse` makes of it. The strings of the conversations are
their code units here, each of them one character of the stored text; ids are texts without
surrogates.
-/

namespace PolyGate.Web.Storage

open Lib Ecma Zod

/-! ## Strings -/

theorem units_le : 0x10000 ≤ 0x110000 := by decide

def ofUnits (s : JsString) : PyStr := s.map (Fin.castLE units_le)

theorem unit_lt (n : Nat) : n % 0x10000 < 0x10000 := Nat.mod_lt n (by decide)

def units (s : PyStr) : JsString := (utf16 s).map fun n => ⟨n % 0x10000, unit_lt n⟩

/-- A string of a conversation. -/
def text : Schema JsString := fun v => (string v).map units

/-- An id. -/
def ident : Schema String := fun v => (string v).bind PyStr.decode

/-! ## `local-conversations.ts` -/

def qualityChoices : List (String × Quality) :=
  [("balanced", .balanced), ("high", .high), ("cheap", .cheap)]

def privacyChoices : List (String × Privacy) := [("standard", .standard), ("high", .high)]

def outcomeChoices : List (String × CardOutcome) :=
  [("success", .success), ("cache_hit", .cacheHit), ("cancelled", .cancelled),
    ("partial_error", .partialError)]

def errorKindChoices : List (String × MessageErrorKind) :=
  [("auth", .auth), ("network", .network), ("routing", .routing), ("provider", .provider),
    ("timeout", .timeout), ("budget", .budget), ("rate_limit", .rateLimit),
    ("validation", .validation), ("partial", .partialAnswer), ("decision", .decision),
    ("unknown", .unknown)]

def roleChoices : List (String × MessageRole) :=
  [("system", .system), ("user", .user), ("assistant", .assistant)]

def statusChoices : List (String × MessageStatus) :=
  [("sending", .sending), ("complete", .complete), ("error", .error), ("cancelled", .cancelled)]

def storageModeChoices : List (String × StorageMode) := [("persistent", .persistent)]

/-- `z.number().int().nonnegative()` -/
def count : Schema PyFloat := nonnegative (int number)

def settingsSchema : Schema RoutingSettings := object fun o => do
  let model ← field o "model" (default text (js "auto"))
  let quality ← field o "quality" (enum qualityChoices)
  let privacy ← field o "privacy" (enum privacyChoices)
  let maxCostUsd ← field o "maxCostUsd" (nonnegative number)
  let latencyTargetMs ← field o "latencyTargetMs" (positive (int number))
  return ⟨model, quality, privacy, maxCostUsd, latencyTargetMs⟩

def tokensSchema : Schema TokenUsage := object fun o => do
  let input ← field o "input" count
  let output ← field o "output" count
  return ⟨input, output⟩

def storedCardSchema : Schema DecisionCardData := object fun o => do
  let chosenProvider ← field o "chosenProvider" text
  let reason ← field o "reason" text
  let cacheHit ← field o "cacheHit" boolean
  let costEstimateUsd ← field o "costEstimateUsd" (nonnegative number)
  let latencyMs ← field o "latencyMs" count
  let tokens ← field o "tokens" tokensSchema
  let retries ← field o "retries" count
  let failoverFrom ← field o "failoverFrom" (nullable text)
  let requestId ← field o "requestId" text
  let outcome ← field o "outcome" (optional (enum outcomeChoices))
  let initialProvider ← field o "initialProvider" (optional text)
  let failoverCount ← field o "failoverCount" (optional count)
  let stream ← field o "stream" (optional boolean)
  let createdAt ← field o "createdAt" (optional text)
  let expiresAt ← field o "expiresAt" (optional text)
  return ⟨chosenProvider, reason, cacheHit, costEstimateUsd, latencyMs, tokens, retries,
    failoverFrom, requestId, outcome, initialProvider, failoverCount, stream, createdAt, expiresAt⟩

def messageErrorSchema : Schema MessageError := object fun o => do
  let kind ← field o "kind" (enum errorKindChoices)
  let message ← field o "message" text
  let status ← field o "status" (optional (int number))
  let requestId ← field o "requestId" (optional text)
  return ⟨kind, message, status, requestId⟩

def messageSchema : Schema ChatMessage := object fun o => do
  let id ← field o "id" ident
  let role ← field o "role" (enum roleChoices)
  let content ← field o "content" text
  let createdAt ← field o "createdAt" text
  let status ← field o "status" (enum statusChoices)
  let requestSettings ← field o "requestSettings" (optional settingsSchema)
  let decisionCard ← field o "decisionCard" (optional storedCardSchema)
  let error ← field o "error" (optional messageErrorSchema)
  let warning ← field o "warning" (optional messageErrorSchema)
  let parentUserMessageId ← field o "parentUserMessageId" (optional ident)
  return ⟨id, role, content, createdAt, status, requestSettings, decisionCard, error, warning,
    parentUserMessageId⟩

def conversationSchema : Schema Conversation := object fun o => do
  let id ← field o "id" ident
  let title ← field o "title" text
  let createdAt ← field o "createdAt" text
  let updatedAt ← field o "updatedAt" text
  let settings ← field o "settings" settingsSchema
  let messages ← field o "messages" (array messageSchema)
  let storageMode ← field o "storageMode" (enum storageModeChoices)
  return ⟨id, title, createdAt, updatedAt, settings, messages, storageMode⟩

/-- `persistedSchema`; that all conversations are persistent is what the schema of one says. -/
def persistedSchema : Schema Persisted := object fun o => do
  field o "schemaVersion" (literal 1)
  let activeConversationId ← field o "activeConversationId" (nullable ident)
  let conversations ← field o "conversations" (array conversationSchema)
  if h : ∀ c ∈ conversations, c.storageMode = .persistent then
    some ⟨activeConversationId, conversations, h⟩
  else none

/-! ## What is stored -/

def orUndefined {α : Type} (f : α → Value) : Option α → Value
  | none => .undefined
  | some a => f a

def orNull {α : Type} (f : α → Value) : Option α → Value
  | none => .null
  | some a => f a

def textValue (s : JsString) : Value := .string (ofUnits s)

def identValue (s : String) : Value := .string (str s)

def qualityValue : Quality → Value
  | .balanced => identValue "balanced"
  | .high => identValue "high"
  | .cheap => identValue "cheap"

def privacyValue : Privacy → Value
  | .standard => identValue "standard"
  | .high => identValue "high"

def outcomeValue : CardOutcome → Value
  | .success => identValue "success"
  | .cacheHit => identValue "cache_hit"
  | .cancelled => identValue "cancelled"
  | .partialError => identValue "partial_error"

def errorKindValue : MessageErrorKind → Value
  | .auth => identValue "auth"
  | .network => identValue "network"
  | .routing => identValue "routing"
  | .provider => identValue "provider"
  | .timeout => identValue "timeout"
  | .budget => identValue "budget"
  | .rateLimit => identValue "rate_limit"
  | .validation => identValue "validation"
  | .partialAnswer => identValue "partial"
  | .decision => identValue "decision"
  | .unknown => identValue "unknown"

def roleValue : MessageRole → Value
  | .system => identValue "system"
  | .user => identValue "user"
  | .assistant => identValue "assistant"

def statusValue : MessageStatus → Value
  | .sending => identValue "sending"
  | .complete => identValue "complete"
  | .error => identValue "error"
  | .cancelled => identValue "cancelled"

def storageModeValue : StorageMode → Value
  | .persistent => identValue "persistent"
  | .ephemeral => identValue "ephemeral"

def settingsValue (s : RoutingSettings) : Value := record
  [("model", textValue s.model), ("quality", qualityValue s.quality),
    ("privacy", privacyValue s.privacy), ("maxCostUsd", .number s.maxCostUsd),
    ("latencyTargetMs", .number s.latencyTargetMs)]

def tokensValue (t : TokenUsage) : Value := record
  [("input", .number t.input), ("output", .number t.output)]

def cardValue (c : DecisionCardData) : Value := record
  [("chosenProvider", textValue c.chosenProvider), ("reason", textValue c.reason),
    ("cacheHit", .bool c.cacheHit), ("costEstimateUsd", .number c.costEstimateUsd),
    ("latencyMs", .number c.latencyMs), ("tokens", tokensValue c.tokens),
    ("retries", .number c.retries), ("failoverFrom", orNull textValue c.failoverFrom),
    ("requestId", textValue c.requestId), ("outcome", orUndefined outcomeValue c.outcome),
    ("initialProvider", orUndefined textValue c.initialProvider),
    ("failoverCount", orUndefined .number c.failoverCount),
    ("stream", orUndefined .bool c.stream), ("createdAt", orUndefined textValue c.createdAt),
    ("expiresAt", orUndefined textValue c.expiresAt)]

def errorValue (e : MessageError) : Value := record
  [("kind", errorKindValue e.kind), ("message", textValue e.message),
    ("status", orUndefined .number e.status), ("requestId", orUndefined textValue e.requestId)]

def messageValue (m : ChatMessage) : Value := record
  [("id", identValue m.id), ("role", roleValue m.role), ("content", textValue m.content),
    ("createdAt", textValue m.createdAt), ("status", statusValue m.status),
    ("requestSettings", orUndefined settingsValue m.requestSettings),
    ("decisionCard", orUndefined cardValue m.decisionCard),
    ("error", orUndefined errorValue m.error), ("warning", orUndefined errorValue m.warning),
    ("parentUserMessageId", orUndefined identValue m.parentUserMessageId)]

def conversationValue (c : Conversation) : Value := record
  [("id", identValue c.id), ("title", textValue c.title), ("createdAt", textValue c.createdAt),
    ("updatedAt", textValue c.updatedAt), ("settings", settingsValue c.settings),
    ("messages", .array (c.messages.map messageValue)),
    ("storageMode", storageModeValue c.storageMode)]

/-- The id that is stored as the active one. -/
def activeStored (s : ConversationState) : Option String :=
  if (persistState s).any fun c => some c.id = s.activeConversationId then s.activeConversationId
  else (persistState s).head?.map (·.id)

/-- What `persistState` gives to `JSON.stringify`. -/
def storedValue (s : ConversationState) : Value := record
  [("schemaVersion", .number (.ofRat 1)),
    ("activeConversationId", orNull identValue (activeStored s)),
    ("conversations", .array ((persistState s).map conversationValue))]

/-! ## `migrate` -/

/-- What a spread takes from a value. An array or a string would give it fields that are numbered,
which no schema asks for. -/
def spread : Value → Fields
  | .object fields => fields
  | _ => []

/-- A conversation of version 0 gets the settings it lacks, and is persistent. -/
def migrateConversation : Value → Value
  | .object fields =>
    let settings := (spread (Ecma.get fields (str "settings"))).foldl
      (fun o kv => assign o kv.1 kv.2) (spread (settingsValue defaultSettings))
    .object (assign (assign fields (str "settings") (.object settings)) (str "storageMode")
      (storageModeValue .persistent))
  | v => v

def migrate : Value → Value
  | .object fields =>
    match Ecma.get fields (str "schemaVersion"), Ecma.get fields (str "conversations") with
    | .number version, .array conversations =>
      if version.eq (.ofRat 0) then
        .object (assign (assign fields (str "schemaVersion") (.number (.ofRat 1)))
          (str "conversations") (.array (conversations.map migrateConversation)))
      else .object fields
    | _, _ => .object fields
  | raw => raw

/-- What is restored from a value in the storage. -/
def readStored (raw : Value) : Option Persisted := persistedSchema (migrate raw)

/-! ## `domain/gateway.ts` -/

/-- `/^req_[0-9a-f]{32}$/` -/
def isRequestId (s : PyStr) : Bool :=
  s.length = 36 ∧ s.take 4 = str "req_" ∧
    (s.drop 4).all fun p => p.val ∈ (str "0123456789abcdef").map (·.val)

/-- `decisionCardSchema`, as `gatewayResponseSchema` turns it into a card. -/
def decisionCardSchema : Schema DecisionCardData := object fun o => do
  let chosenProvider ← field o "chosen_provider" text
  let reason ← field o "reason" text
  let cacheHit ← field o "cache_hit" boolean
  let costEstimateUsd ← field o "cost_estimate_usd" (nonnegative number)
  let latencyMs ← field o "latency_ms" count
  let tokens ← field o "tokens" tokensSchema
  let retries ← field o "retries" (default count (.ofRat 0))
  let failoverFrom ← field o "failover_from" (default (nullable text) none)
  let requestId ← field o "request_id" text
  return ⟨chosenProvider, reason, cacheHit, costEstimateUsd, latencyMs, tokens, retries,
    failoverFrom, requestId, none, none, none, none, none, none⟩

def decisionRecordSchema : Schema DecisionCardData := object fun o => do
  field o "schema_version" (literal 1)
  let requestId ← field o "request_id" (check string isRequestId)
  let outcome ← field o "outcome" (enum outcomeChoices)
  let chosenProvider ← field o "chosen_provider" (nonempty string)
  let initialProvider ← field o "initial_provider" (nonempty string)
  let reason ← field o "reason" (nonempty string)
  let cacheHit ← field o "cache_hit" boolean
  let stream ← field o "stream" boolean
  let costEstimateUsd ← field o "cost_estimate_usd" (nonnegative number)
  let latencyMs ← field o "latency_ms" count
  let tokens ← field o "tokens" tokensSchema
  let retries ← field o "retries" count
  let failoverFrom ← field o "failover_from" (nullable text)
  let failoverCount ← field o "failover_count" count
  let createdAt ← field o "created_at" text
  let expiresAt ← field o "expires_at" text
  return ⟨units chosenProvider, units reason, cacheHit, costEstimateUsd, latencyMs, tokens,
    retries, failoverFrom, units requestId, some outcome, some (units initialProvider),
    some failoverCount, some stream, some createdAt, some expiresAt⟩

/-! ## The inputs -/

/-- `Math.max(x, y)` -/
def mathMax : PyFloat → PyFloat → PyFloat
  | .nan, _ | _, .nan => .nan
  | .inf true, y | y, .inf true => y
  | .inf false, _ | _, .inf false => .inf false
  | .finite neg m, .finite neg' m' =>
    let x := PyFloat.value neg m
    let y := PyFloat.value neg' m'
    if x < y ∨ x = y ∧ neg then .finite neg' m' else .finite neg m

/-- `Math.round(x)` -/
def mathRound : PyFloat → PyFloat
  | .finite neg m =>
    let n := ⌊PyFloat.value neg m + 1 / 2⌋
    if n = 0 then .finite neg 0 else .ofRat n
  | x => x

/-- What the cost input makes of the number in it. -/
def maxCostUsd (x : PyFloat) : PyFloat := mathMax (.ofRat 0) x

/-- What the latency input makes of the number in it. -/
def latencyTargetMs (x : PyFloat) : PyFloat := mathMax (.ofRat 1) (mathRound x)

end PolyGate.Web.Storage
