import PolyGate.Lib.Json

/-!
# `Gateway/Models.lean` — chat requests

`gateway/app/models.py`. What pydantic checks is carried by the structures: a `GatewayRequest`
*is* a request that was accepted. Dictionaries the Gateway does not look into are kept as JSON
objects.

`provider_payload`, `message_dicts` and the two classifications `required_capabilities` and
`bypass_cache` are translated with the order of their checks, since `block.get("type") not in
{…}` raises on an unhashable value.
-/

namespace PolyGate.Gateway

open Lib

/-! ## Messages -/

inductive Role | system | developer | user | assistant | tool
  deriving DecidableEq, Repr

def Role.value : Role → String
  | .system => "system"
  | .developer => "developer"
  | .user => "user"
  | .assistant => "assistant"
  | .tool => "tool"

/-- `str | list[dict[str, Any]]` -/
inductive Content
  | text (s : PyStr)
  | blocks (bs : List Obj)

def Content.toJson : Content → Json
  | .text s => .str s
  | .blocks bs => .arr (bs.map .obj)

/-- The declared fields of `Message`. -/
def messageFields : List String := ["role", "content", "name", "tool_calls", "tool_call_id"]

/-- `Message`; other keys are allowed and kept. -/
structure Message where
  role : Role
  content : Option Content
  name : Option PyStr
  toolCalls : Option (List Obj)
  toolCallId : Option PyStr
  extra : Obj
  extra_other : ∀ e ∈ extra, e.1 ∉ messageFields.map str
  tool_id : role = .tool → ∃ id, toolCallId = some id ∧ id ≠ []
  has_content : role ≠ .assistant → content.isSome = true
  assistant_says : role = .assistant → content = none → ∃ calls, toolCalls = some calls ∧ calls ≠ []

/-- An entry of a dumped model: `exclude_none` leaves an absent value out. -/
def field (key : String) : Option Json → Obj
  | some v => [(str key, v)]
  | none => []

/-- `bool(xs)` for an optional list -/
def truthyList {α : Type} : Option (List α) → Bool
  | some xs => !xs.isEmpty
  | none => false

/-- A message of the web client. -/
def Message.user (s : PyStr) : Message where
  role := .user
  content := some (.text s)
  name := none
  toolCalls := none
  toolCallId := none
  extra := []
  extra_other := by simp
  tool_id := by simp
  has_content := by simp
  assistant_says := by simp

/-- A user message with content blocks. -/
def Message.userBlocks (blocks : List Obj) : Message :=
  { Message.user [] with
    content := some (.blocks blocks)
    has_content := fun _ => rfl
    assistant_says := fun _ h => absurd h (Option.some_ne_none _) }

namespace Message

/-- `message.model_dump(exclude_none=True)` -/
def modelDump (m : Message) : Obj :=
  field "role" (some (.str (str m.role.value))) ++
  field "content" (m.content.map (·.toJson)) ++
  field "name" (m.name.map .str) ++
  field "tool_calls" (m.toolCalls.map fun calls => .arr (calls.map .obj)) ++
  field "tool_call_id" (m.toolCallId.map .str) ++
  m.extra.filter fun e => !e.2.isNone

/-- `message.role == "tool" or bool(message.tool_calls)` -/
def usesTools (m : Message) : Bool := m.role = .tool || truthyList m.toolCalls

end Message

/-! ## Constraints -/

inductive Privacy | standard | high
  deriving DecidableEq, Repr

def Privacy.value : Privacy → String
  | .standard => "standard"
  | .high => "high"

inductive Quality | balanced | high | cheap
  deriving DecidableEq, Repr

def Quality.value : Quality → String
  | .balanced => "balanced"
  | .high => "high"
  | .cheap => "cheap"

inductive CacheControl | auto | noStore
  deriving DecidableEq, Repr

structure PolygateConstraints where
  latencyTargetMs : Int
  maxCostUsd : PyFloat
  privacy : Privacy
  quality : Quality
  cacheControl : CacheControl
  sessionId : Option String
  latencyTargetMs_pos : 0 < latencyTargetMs
  /-- `nan` passes such a check -/
  maxCostUsd_nonneg : maxCostUsd.below 0 = false
  sessionId_length : ∀ s ∈ sessionId, 1 ≤ s.length ∧ s.length ≤ 256

/-- `PolygateConstraints()` -/
def PolygateConstraints.default : PolygateConstraints where
  latencyTargetMs := 3000
  maxCostUsd := .ofRat (1 / 100)
  privacy := .standard
  quality := .balanced
  cacheControl := .auto
  sessionId := none
  latencyTargetMs_pos := by decide
  maxCostUsd_nonneg := by decide +kernel
  sessionId_length := by simp

/-! ## Requests -/

/-- `Literal["none", "auto", "required"] | dict[str, Any]` -/
inductive ToolChoice
  | none | auto | required
  | named (choice : Obj)

def ToolChoice.toJson : ToolChoice → Json
  | .none => .str (str "none")
  | .auto => .str (str "auto")
  | .required => .str (str "required")
  | .named choice => .obj choice

/-- `str | list[str]` -/
inductive Stop
  | one (s : PyStr)
  | many (ss : List PyStr)

def Stop.toJson : Stop → Json
  | .one s => .str s
  | .many ss => .arr (ss.map .str)

/-- The bounds of an optional `float` field: neither `x < lo` nor `hi < x`. -/
def Within (lo hi : ℚ) (x : Option PyFloat) : Prop :=
  ∀ v ∈ x, v.below lo = false ∧ v.above hi = false

structure GatewayRequest where
  model : String
  messages : List Message
  tools : Option (List Obj)
  toolChoice : Option ToolChoice
  parallelToolCalls : Option Bool
  temperature : Option PyFloat
  topP : Option PyFloat
  maxTokens : Option Int
  maxCompletionTokens : Option Int
  stop : Option Stop
  responseFormat : Option Obj
  stream : Bool
  streamOptions : Option Obj
  seed : Option Int
  frequencyPenalty : Option PyFloat
  presencePenalty : Option PyFloat
  logitBias : Option (List (PyStr × PyFloat))
  logprobs : Option Bool
  topLogprobs : Option Int
  user : Option PyStr
  serviceTier : Option PyStr
  reasoningEffort : Option PyStr
  store : Option Bool
  polygate : PolygateConstraints
  model_pos : 1 ≤ model.length
  messages_pos : 1 ≤ messages.length
  temperature_bounds : Within 0 2 temperature
  topP_bounds : Within 0 1 topP
  maxTokens_pos : ∀ n ∈ maxTokens, 0 < n
  maxCompletionTokens_pos : ∀ n ∈ maxCompletionTokens, 0 < n
  frequencyPenalty_bounds : Within (-2) 2 frequencyPenalty
  presencePenalty_bounds : Within (-2) 2 presencePenalty
  topLogprobs_bounds : ∀ n ∈ topLogprobs, 0 ≤ n ∧ n ≤ 20
  streamOptions_stream : streamOptions.isSome = true → stream = true
  includeUsage_bool : ∀ o ∈ streamOptions, ∀ v ∈ Obj.get? o "include_usage",
    v = .null ∨ ∃ b, v = .bool b
  topLogprobs_logprobs : topLogprobs.isSome = true → logprobs = some true

/-- A request in which only the given fields are set. -/
def GatewayRequest.plain (model : String) (messages : List Message) (polygate : PolygateConstraints)
    (model_pos : 1 ≤ model.length) (messages_pos : 1 ≤ messages.length) : GatewayRequest where
  model := model
  messages := messages
  tools := none
  toolChoice := none
  parallelToolCalls := none
  temperature := none
  topP := none
  maxTokens := none
  maxCompletionTokens := none
  stop := none
  responseFormat := none
  stream := false
  streamOptions := none
  seed := none
  frequencyPenalty := none
  presencePenalty := none
  logitBias := none
  logprobs := none
  topLogprobs := none
  user := none
  serviceTier := none
  reasoningEffort := none
  store := none
  polygate := polygate
  model_pos := model_pos
  messages_pos := messages_pos
  temperature_bounds := by simp [Within]
  topP_bounds := by simp [Within]
  maxTokens_pos := by simp
  maxCompletionTokens_pos := by simp
  frequencyPenalty_bounds := by simp [Within]
  presencePenalty_bounds := by simp [Within]
  topLogprobs_bounds := by simp
  streamOptions_stream := by simp
  includeUsage_bool := by simp
  topLogprobs_logprobs := by simp

/-- `TypeError` -/
structure TypeError where
  msg : String
  deriving DecidableEq, Repr

/-- `block.get("type") not in {"text", "input_text"}`, which hashes what the block says. -/
def isVisual (block : Obj) : Except TypeError Bool :=
  match Obj.get? block "type" with
  | some (.arr _) => .error ⟨"unhashable type: 'list'"⟩
  | some (.obj _) => .error ⟨"unhashable type: 'dict'"⟩
  | some v => .ok (!(v.isText "text" || v.isText "input_text"))
  | none => .ok true

namespace GatewayRequest

variable (req : GatewayRequest)

def messageDicts : List Obj := req.messages.map (·.modelDump)

/-- `model_dump(exclude={"polygate"}, exclude_none=True)` -/
def providerPayload : Obj :=
  field "model" (some (.str (str req.model))) ++
  field "messages" (some (.arr (req.messageDicts.map .obj))) ++
  field "tools" (req.tools.map fun tools => .arr (tools.map .obj)) ++
  field "tool_choice" (req.toolChoice.map (·.toJson)) ++
  field "parallel_tool_calls" (req.parallelToolCalls.map .bool) ++
  field "temperature" (req.temperature.map .float) ++
  field "top_p" (req.topP.map .float) ++
  field "max_tokens" (req.maxTokens.map .int) ++
  field "max_completion_tokens" (req.maxCompletionTokens.map .int) ++
  field "stop" (req.stop.map (·.toJson)) ++
  field "response_format" (req.responseFormat.map .obj) ++
  field "stream" (some (.bool req.stream)) ++
  field "stream_options" (req.streamOptions.map .obj) ++
  field "seed" (req.seed.map .int) ++
  field "frequency_penalty" (req.frequencyPenalty.map .float) ++
  field "presence_penalty" (req.presencePenalty.map .float) ++
  field "logit_bias" (req.logitBias.map fun bias => .obj (bias.map fun e => (e.1, .float e.2))) ++
  field "logprobs" (req.logprobs.map .bool) ++
  field "top_logprobs" (req.topLogprobs.map .int) ++
  field "user" (req.user.map .str) ++
  field "service_tier" (req.serviceTier.map .str) ++
  field "reasoning_effort" (req.reasoningEffort.map .str) ++
  field "store" (req.store.map .bool)

def requiredCapabilities : Except TypeError (List String) := do
  let streaming := if req.stream then ["streaming"] else []
  let tools :=
    if truthyList req.tools || req.messages.any (·.usesTools) then ["tools"] else []
  let parallel := if req.parallelToolCalls = some true then ["parallel_tool_calls"] else []
  let store := if req.store = some true then ["store"] else []
  let visual ← req.messages.anyM fun m =>
    match m.content with
    | some (.blocks bs) => bs.anyM isVisual
    | _ => pure false
  let vision := if visual then ["vision"] else []
  return streaming ++ tools ++ parallel ++ store ++ vision

/-- Keys of the payload that the cache key does not cover. -/
def hasGenerationOptions : Bool :=
  req.providerPayload.any fun e => e.1 ∉ ["model", "messages", "stream"].map str

def hasMessageMetadata : Bool :=
  req.messages.any fun m => m.modelDump.any fun e => e.1 ∉ ["role", "content"].map str

def bypassCache : Bool :=
  req.polygate.cacheControl = .noStore ||
  req.polygate.sessionId.isSome ||
  req.stream ||
  truthyList req.tools ||
  req.hasGenerationOptions ||
  req.hasMessageMetadata ||
  req.messages.any fun m =>
    m.usesTools || match m.content with
      | some (.text _) => false
      | _ => true

end GatewayRequest

end PolyGate.Gateway
