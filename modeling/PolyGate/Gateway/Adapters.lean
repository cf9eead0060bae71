import PolyGate.Gateway.Registry

/-!
# `Gateway/Adapters.lean` — the request as a provider gets it

`_message_text`, `_normalize_messages` and `build_provider_payload` of `gateway/app/adapters.py`:
what the client asked for, over the defaults of the registry entry, with developer messages, content
blocks and `store` adapted to what the entry says it can take.

The payload may be any dictionary, so the functions may raise where a value has another shape; a
`ProviderPayloadError` is raised for what the provider cannot represent.
-/

namespace PolyGate.Gateway

open Lib

/-- `ProviderPayloadError` -/
inductive PayloadError
  /-- "provider … has invalid request_defaults" -/
  | invalidDefaults (name : String)
  /-- "provider … cannot accept content blocks: …", with the types of the blocks -/
  | contentBlocks (name : String) (types : List Json)
  /-- "provider … cannot honor store=true" -/
  | cannotHonorStore (name : String)

inductive AdapterExc
  | payloadError (e : PayloadError)
  | shape (e : ShapeError)

/-- `x or {}` -/
def orEmpty : Option Json → Json
  | some v => if v.truthy then v else .obj []
  | none => .obj []

/-! ## Messages -/

/-- `block.get("type") not in {"text", "input_text"}` -/
def notText (block : Obj) : Except ShapeError Bool :=
  (isVisual block).mapError fun e => .typeError e.msg

/-- What one element of a content adds to its text. -/
def blockText : Json → Except ShapeError PyStr
  | .obj block => do
    if ← notText block then return []
    else match Obj.get? block "text" with
      | some (.str text) => return text
      | _ => return []
  | _ => .ok []

/-- `_message_text` -/
def messageText : Json → Except ShapeError PyStr
  | .str s => .ok s
  | .arr content => do
    let texts ← content.mapM blockText
    return texts.flatten
  | _ => .ok []

/-- The types of the blocks that are no text. -/
def unsupported : List Json → Except ShapeError (List Json)
  | [] => .ok []
  | .obj block :: content => do
    let other ← notText block
    let types ← unsupported content
    return if other then (Obj.get? block "type").getD .null :: types else types
  | v :: _ => .error (.attributeError v.typeName "get")

/-- A developer message for a provider that knows no such role. -/
def adaptRole (acceptsDeveloper : Bool) (message : Obj) : Obj :=
  if fieldIs "developer" (Obj.get? message "role") && !acceptsDeveloper then
    setItem message (str "role") (.str (str "system"))
  else message

/-- The body of the loop of `_normalize_messages`. -/
def normalizeSource (name : String) (acceptsBlocks acceptsDeveloper : Bool) (source : Json) :
    Except AdapterExc Obj := do
  let message ← source.toDict.mapError .shape
  let message := adaptRole acceptsDeveloper message
  match Obj.get? message "content" with
  | some (.arr content) =>
    if acceptsBlocks then return message
    else do
      let types ← (unsupported content).mapError .shape
      if types.isEmpty then
        let text ← (messageText (.arr content)).mapError .shape
        return setItem message (str "content") (.str text)
      else throw (.payloadError (.contentBlocks name types))
  | _ => return message

namespace Entry

variable (e : Entry)

def normalizeMessages (messages : List Json) : Except AdapterExc (List Obj) := do
  let acceptsBlocks ← (e.isCapable "content_blocks").mapError .shape
  let acceptsDeveloper ← (e.isCapable "developer_role").mapError .shape
  messages.mapM (normalizeSource e.name acceptsBlocks acceptsDeveloper)

/-! ## The body of the upstream request -/

/-- `provider.get("request_defaults") or {}` -/
def requestDefaults : Except AdapterExc Obj :=
  match orEmpty (e.get? "request_defaults") with
  | .obj defaults => .ok defaults
  | _ => .error (.payloadError (.invalidDefaults e.name))

/-- The defaults, the payload over them, and the entry's own model. -/
def baseBody (defaults payload : Obj) : Obj :=
  setItem (Obj.pop (Obj.update defaults payload) "polygate") (str "model")
    ((e.get? "model").getD (.str (str "default")))

/-- `store=false` is left out for a provider that knows no `store`. -/
def honorStore (body : Obj) : Except AdapterExc Obj :=
  match Obj.get? body "store" with
  | none => .ok body
  | some store => do
    if ← (e.isCapable "store").mapError .shape then return body
    else if store.isTrue then throw (.payloadError (.cannotHonorStore e.name))
    else return Obj.pop body "store"

/-- The usage is always asked for. -/
def requestUsage (body : Obj) : Except AdapterExc Obj :=
  if (Obj.get? body "stream").any (·.truthy) then do
    let streamOptions ← (orEmpty (Obj.get? body "stream_options")).toDict.mapError .shape
    return setItem body (str "stream_options")
      (.obj (setItem streamOptions (str "include_usage") (.bool true)))
  else .ok body

def buildProviderPayload (payload : Obj) : Except AdapterExc Obj := do
  let defaults ← e.requestDefaults
  let body := e.baseBody defaults payload
  let messages ← ((Obj.get? body "messages").getD (.arr [])).toList.mapError .shape
  let messages ← e.normalizeMessages messages
  let body ← e.honorStore (setItem body (str "messages") (.arr (messages.map .obj)))
  requestUsage body

end Entry

/-! ## Blocks -/

/-- The type of the block can be looked up in a set. -/
def hashable (block : Obj) : Bool :=
  match Obj.get? block "type" with
  | some (.arr _) | some (.obj _) => false
  | _ => true

/-- The block is no text. -/
def visual (block : Obj) : Bool :=
  match Obj.get? block "type" with
  | some v => !(v.isText "text" || v.isText "input_text")
  | none => true

/-- What a block adds to the text of its message. -/
def textOf (block : Obj) : PyStr :=
  if visual block then []
  else match Obj.get? block "text" with
    | some (.str text) => text
    | _ => []

/-- A block whose type cannot be hashed counts as visual. -/
theorem hashable_of_not_visual {block : Obj} (h : visual block = false) :
    hashable block = true := by
  unfold visual at h
  unfold hashable
  cases htype : Obj.get? block "type" with
  | none => rfl
  | some v =>
    rw [htype] at h
    cases v with
    | arr => cases h
    | obj => cases h
    | _ => rfl

section Blocks
variable {block : Obj} {blocks : List Obj}

theorem isVisual_eq (h : hashable block = true) : isVisual block = .ok (visual block) := by
  unfold hashable at h
  unfold isVisual visual
  cases htype : Obj.get? block "type" with
  | none => rfl
  | some v =>
    rw [htype] at h
    cases v with
    | arr | obj => cases h
    | _ => rfl

/-- Looking a list or a dictionary up in a set raises. -/
theorem isVisual_raises (h : hashable block = false) : ∃ e, isVisual block = .error e := by
  unfold hashable at h
  unfold isVisual
  cases htype : Obj.get? block "type" with
  | none =>
    rw [htype] at h
    cases h
  | some v =>
    rw [htype] at h
    cases v with
    | arr | obj => exact ⟨_, rfl⟩
    | _ => cases h

theorem notText_eq (h : hashable block = true) : notText block = .ok (visual block) := by
  rw [notText, isVisual_eq h]
  rfl

/-- The types of the blocks that a provider without content blocks cannot take. -/
def visualTypes (blocks : List Obj) : List Json :=
  (blocks.filter visual).map fun block => (Obj.get? block "type").getD .null

/-- The types that are named in the error are those of the visual blocks, in their order. -/
theorem unsupported_eq (h : ∀ block ∈ blocks, hashable block = true) :
    unsupported (blocks.map .obj) = .ok (visualTypes blocks) := by
  induction blocks with
  | nil => rfl
  | cons block blocks ih =>
    obtain ⟨hblock, hblocks⟩ := List.forall_mem_cons.mp h
    rw [List.map_cons, unsupported, notText_eq hblock, ih hblocks]
    unfold visualTypes
    cases hvisual : visual block with
    | false => simp [hvisual, bind, Except.bind, pure, Except.pure]
    | true => simp [hvisual, bind, Except.bind, pure, Except.pure]

theorem visualTypes_eq_nil : visualTypes blocks = [] ↔ ∀ block ∈ blocks, visual block = false := by
  simp [visualTypes, List.filter_eq_nil_iff]

theorem blockText_eq (h : hashable block = true) : blockText (.obj block) = .ok (textOf block) := by
  rw [blockText, notText_eq h]
  unfold textOf
  cases visual block with
  | true => rfl
  | false =>
    show (match Obj.get? block "text" with | some (.str text) => _ | _ => _) = _
    split <;> rfl

/-- The text of a message is that of its blocks, joined. -/
theorem messageText_eq (h : ∀ block ∈ blocks, hashable block = true) :
    messageText (.arr (blocks.map .obj)) = .ok (blocks.flatMap textOf) := by
  have htexts : (blocks.map Json.obj).mapM blockText = .ok (blocks.map textOf) := by
    rw [List.mapM_map]
    exact mapM_eq_ok fun block hblock => blockText_eq (h block hblock)
  rw [messageText, htexts]
  rfl

end Blocks

/-! ## The payload of a request -/

section Payload
variable {k key : String} {v : Option Json} {d : Obj}

theorem get?_field_append : Obj.get? (field k v ++ d) key =
    if key = k then v.or (Obj.get? d key) else Obj.get? d key := by
  cases v with
  | none =>
    by_cases h : key = k
    · simp [field, h]
    · simp [field, h]
  | some v => exact Obj.get?_cons ..

theorem get?_field : Obj.get? (field k v) key = if key = k then v else none := by
  have h := @get?_field_append k key v []
  rw [List.append_nil] at h
  rw [h]
  simp

theorem keys_field_append {ks : List String} (h : (d.map (·.1)).Sublist (ks.map str)) :
    ((field k v ++ d).map (·.1)).Sublist ((k :: ks).map str) := by
  cases v with
  | none => exact h.cons _
  | some v => exact h.cons_cons _

variable {req : GatewayRequest} {m : Message}

/-- The fields of `GatewayRequest` that are forwarded. -/
def payloadFields : List String :=
  ["model", "messages", "tools", "tool_choice", "parallel_tool_calls", "temperature", "top_p",
   "max_tokens", "max_completion_tokens", "stop", "response_format", "stream", "stream_options",
   "seed", "frequency_penalty", "presence_penalty", "logit_bias", "logprobs", "top_logprobs",
   "user",
   "service_tier", "reasoning_effort", "store"]

theorem payloadFields_nodup : (payloadFields.map str).Nodup :=
  List.Nodup.map str_injective (by decide)

/-- No field is dumped twice. -/
theorem payload_nodup : (req.providerPayload.map (·.1)).Nodup := by
  have hsub : (List.map Prod.fst (req.providerPayload ++ [])).Sublist (payloadFields.map str) := by
    unfold GatewayRequest.providerPayload payloadFields
    simp only [List.append_assoc]
    repeat refine keys_field_append ?_
    exact List.Sublist.refl _
  rw [List.append_nil] at hsub
  exact payloadFields_nodup.sublist hsub

/-- The messages of the payload are the request's, dumped one by one. -/
theorem payload_messages : Obj.get? req.providerPayload "messages" =
    some (.arr (req.messageDicts.map .obj)) := by
  unfold GatewayRequest.providerPayload
  simp only [List.append_assoc, get?_field_append, String.reduceEq, if_false, if_true,
    Option.some_or]

theorem payload_stream : Obj.get? req.providerPayload "stream" = some (.bool req.stream) := by
  unfold GatewayRequest.providerPayload
  simp only [List.append_assoc, get?_field_append, String.reduceEq, if_false, if_true,
    Option.some_or]

theorem payload_store : Obj.get? req.providerPayload "store" = req.store.map .bool := by
  unfold GatewayRequest.providerPayload
  simp only [List.append_assoc, get?_field_append, get?_field, String.reduceEq, if_false, if_true]

theorem payload_streamOptions :
    Obj.get? req.providerPayload "stream_options" = req.streamOptions.map .obj := by
  unfold GatewayRequest.providerPayload
  simp only [List.append_assoc, get?_field_append, get?_field, String.reduceEq, if_false, if_true,
    Option.or_none]

/-- No other key of a message stands for a declared field. -/
theorem extra_get? (h : key ∈ messageFields) : Obj.get? (m.extra.filter fun e => !e.2.isNone) key =
    none := by
  refine lookup_eq_none_iff.mpr fun e he heq => ?_
  exact m.extra_other e (List.mem_of_mem_filter he) (heq ▸ List.mem_map_of_mem h)

theorem modelDump_content : Obj.get? m.modelDump "content" = m.content.map (·.toJson) := by
  unfold Message.modelDump
  simp only [List.append_assoc, get?_field_append, String.reduceEq, if_false, if_true,
    @extra_get? "content" m (by decide), Option.or_none]

end Payload

/-! ## The messages of a request -/

/-- The blocks of a message. -/
def Message.blocks (m : Message) : List Obj :=
  match m.content with
  | some (.blocks bs) => bs
  | _ => []

section Messages
variable {name : String} {acceptsBlocks acceptsDeveloper : Bool} {message : Obj}

theorem adaptRole_content (acceptsDeveloper : Bool) (message : Obj) :
    Obj.get? (adaptRole acceptsDeveloper message) "content" = Obj.get? message "content" := by
  unfold adaptRole
  split
  · rw [Obj.get?_setItem, if_neg (by decide)]
  · rfl

/-- A message without a list of blocks, or for a provider that takes them, keeps its content. -/
theorem normalizeSource_kept
    (h : acceptsBlocks = true ∨ ∀ content, Obj.get? message "content" ≠ some (.arr content)) :
    normalizeSource name acceptsBlocks acceptsDeveloper (.obj message) =
      .ok (adaptRole acceptsDeveloper message) := by
  show (match Obj.get? (adaptRole acceptsDeveloper message) "content" with
    | some (.arr content) => if acceptsBlocks then _ else _
    | _ => _) = _
  rw [adaptRole_content]
  split
  · next content hcontent =>
    rw [h.resolve_right fun hne => hne content hcontent]
    rfl
  · rfl

/-- The blocks of a message become its text, if they all are texts. -/
theorem normalizeSource_raises {content : List Json} {err : ShapeError}
    (h : Obj.get? message "content" = some (.arr content))
    (herr : unsupported content = .error err) :
    normalizeSource name false acceptsDeveloper (.obj message) = .error (.shape err) := by
  show (match Obj.get? (adaptRole acceptsDeveloper message) "content" with
    | some (.arr content) => if false then _ else _
    | _ => _) = _
  rw [adaptRole_content, h]
  show ((unsupported content).mapError AdapterExc.shape >>= _) = _
  rw [herr]
  rfl

/-- Without block support a message of blocks becomes its text, unless one of them is visual. -/
theorem normalizeSource_blocks {bs : List Obj}
    (h : Obj.get? message "content" = some (.arr (bs.map .obj)))
    (hhashable : ∀ block ∈ bs, hashable block = true) :
    normalizeSource name false acceptsDeveloper (.obj message) =
      if visualTypes bs = [] then
        .ok (setItem (adaptRole acceptsDeveloper message) (str "content")
          (.str (bs.flatMap textOf)))
      else .error (.payloadError (.contentBlocks name (visualTypes bs))) := by
  have htypes : (unsupported (bs.map .obj)).mapError AdapterExc.shape = .ok (visualTypes bs) :=
    mapError_eq_ok.mpr (unsupported_eq hhashable)
  have htext : (messageText (.arr (bs.map .obj))).mapError AdapterExc.shape =
      .ok (bs.flatMap textOf) := mapError_eq_ok.mpr (messageText_eq hhashable)
  show (match Obj.get? (adaptRole acceptsDeveloper message) "content" with
    | some (.arr content) => if false then _ else _
    | _ => _) = _
  rw [adaptRole_content, h]
  refine (bind_of_eq_ok htypes).trans ?_
  cases visualTypes bs with
  | nil => exact bind_of_eq_ok htext
  | cons type types => rfl

/-- A dumped message has a list of blocks when it was sent with one. -/
theorem modelDump_blocks (m : Message) : (∀ content, Obj.get? m.modelDump "content" ≠
      some (.arr content)) ∧ m.blocks = [] ∨
    Obj.get? m.modelDump "content" = some (.arr (m.blocks.map .obj)) := by
  rw [modelDump_content]
  unfold Message.blocks
  cases m.content with
  | none => exact Or.inl ⟨by simp, rfl⟩
  | some content =>
    cases content with
    | text s => exact Or.inl ⟨by simp [Content.toJson], rfl⟩
    | blocks bs => exact Or.inr rfl

end Messages

section Requests
variable {e : Entry} {req : GatewayRequest}

/-- The payload sets the messages and the stream; a default cannot. -/
theorem baseBody_get? {defaults : Obj} {key : String} (hkey : key ≠ "polygate")
    (hmodel : key ≠ "model") : Obj.get? (e.baseBody defaults req.providerPayload) key =
      (Obj.get? req.providerPayload key).or (Obj.get? defaults key) := by
  rw [Entry.baseBody, Obj.get?_setItem, if_neg hmodel, Obj.get?_pop, if_neg hkey,
    Obj.get?_update payload_nodup]

/-- Neither the defaults nor the model replace the messages. -/
theorem baseBody_messages (defaults : Obj) :
    Obj.get? (e.baseBody defaults req.providerPayload) "messages" =
      some (.arr (req.messageDicts.map .obj)) := by
  rw [baseBody_get? (by decide) (by decide), payload_messages]
  rfl

/-- The payload of a request, once the defaults are an object. -/
theorem buildProviderPayload_eq {defaults : Obj} (h : e.requestDefaults = .ok defaults) :
    e.buildProviderPayload req.providerPayload = (do
      let messages ← e.normalizeMessages (req.messageDicts.map .obj)
      let body ← e.honorStore (setItem (e.baseBody defaults req.providerPayload) (str "messages")
        (.arr (messages.map .obj)))
      Entry.requestUsage body) := by
  refine (bind_of_eq_ok h).trans ?_
  dsimp only
  rw [baseBody_messages]
  rfl

/-- What the messages come to, once the entry's capabilities are read. -/
theorem normalizeMessages_eq {acceptsBlocks acceptsDeveloper : Bool}
    (hblocks : e.isCapable "content_blocks" = .ok acceptsBlocks)
    (hdeveloper : e.isCapable "developer_role" = .ok acceptsDeveloper) :
    e.normalizeMessages (req.messageDicts.map .obj) = req.messages.mapM fun m =>
      normalizeSource e.name acceptsBlocks acceptsDeveloper (.obj m.modelDump) := by
  unfold Entry.normalizeMessages
  rw [hblocks, hdeveloper]
  show ((req.messages.map (·.modelDump)).map Json.obj).mapM _ = _
  rw [List.map_map, List.mapM_map]
  rfl

/-- Whether `isCapable` raises depends on the capabilities, not on which one is asked for. -/
theorem isCapable_total {c c' : String} {b : Bool} (h : e.isCapable c = .ok b) :
    ∃ b', e.isCapable c' = .ok b' := by
  unfold Entry.isCapable at h ⊢
  obtain ⟨capabilities, hdict, -⟩ := bind_eq_ok.mp h
  rw [hdict]
  exact ⟨_, rfl⟩

end Requests

end PolyGate.Gateway
