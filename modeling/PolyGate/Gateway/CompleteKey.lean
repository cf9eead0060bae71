import PolyGate.Gateway.Cache

/-!
# `Gateway/CompleteKey.lean` — the cache key covers what an answer depends on

Requests that do not bypass the cache have one key exactly if they agree on the scope, the four
constraints, the policy version and the stripped messages; what is sent to a provider is then the
same but for the whitespace around the contents. The JSON of the messages keeps every code point
as it is, so a message with a surrogate, which a body can hold as `"\ud800"`, has no key: the
text that would be hashed cannot be encoded.
-/

namespace PolyGate.Gateway.CompleteKey

open Lib

/-- A message with the whitespace around its content left out. -/
def stripMessage : Json → Json
  | .obj m => .obj (m.map fun e => match e.2 with
      | .str content => if e.1 = str "content" then (e.1, .str (strip content)) else e
      | _ => e)
  | v => v

/-- A payload with the whitespace around the contents of its messages left out. -/
def stripPayload (payload : Obj) : Obj :=
  payload.map fun e => match e.2 with
    | .arr messages =>
      if e.1 = str "messages" then (e.1, .arr (messages.map stripMessage)) else e
    | _ => e

/-- What two requests, handled under two policy versions, have in common. -/
structure Agree (req req' : GatewayRequest) (forced forced' : Option Provider) (v v' : Nat) :
    Prop where
  scope : cacheScope forced = cacheScope forced'
  privacy : req.polygate.privacy = req'.polygate.privacy
  quality : req.polygate.quality = req'.polygate.quality
  maxCostUsd : req.polygate.maxCostUsd = req'.polygate.maxCostUsd
  latencyTargetMs : req.polygate.latencyTargetMs = req'.polygate.latencyTargetMs
  version : v = v'
  messages : req.messages.map (fun m => (m.role, strip m.text)) =
    req'.messages.map (fun m => (m.role, strip m.text))

/-- Both keys are computed, they are equal exactly if the requests agree, and then the payloads
are the same but for whitespace. -/
def KeyLaw (hexdigest : ByteArray → String) (req req' : GatewayRequest)
    (forced forced' : Option Provider) (v v' : Nat) : Prop :=
  ∃ key key', requestKey hexdigest req forced v = .ok (some key) ∧
    requestKey hexdigest req' forced' v' = .ok (some key') ∧
    (key = key' ↔ Agree req req' forced forced' v v') ∧
    (key = key' → stripPayload req.providerPayload = stripPayload req'.providerPayload)

/-- No message holds a surrogate. -/
def NoSurrogates (req : GatewayRequest) : Prop := ∀ m ∈ req.messages, SurrogateFree m.text

/-! ## Lemmas -/

/-- The scope is the model that was asked for. -/
theorem cacheScope_eq {ctx : Failover.Context} {forced : Option Provider}
    (h : Failover.forcedProvider ctx = .ok forced) : cacheScope forced = ctx.req.model := by
  unfold Failover.forcedProvider at h
  split_ifs at h with hauto
  · cases h
    exact hauto.symm
  · cases hfind : ctx.providers.find? fun p => p.name = ctx.req.model with
    | none => simp [hfind] at h
    | some p =>
      have hname : p.name = ctx.req.model := by simpa using List.find?_some hfind
      simp only [hfind] at h
      split_ifs at h
      cases h
      exact hname

theorem noSurrogates_iff {req : GatewayRequest} :
    NoSurrogates req ↔ ∀ e ∈ req.texts, SurrogateFree e.2 := by
  simp [NoSurrogates, GatewayRequest.texts, strip_surrogateFree]

/-- A key is computed exactly for messages without surrogates. -/
theorem requestKey_isSome {hexdigest : ByteArray → String} {req : GatewayRequest}
    {forced : Option Provider} {v : Nat} (h : req.bypassCache = false) :
    (∃ key, requestKey hexdigest req forced v = .ok (some key)) ↔ NoSurrogates req := by
  rw [noSurrogates_iff, ← payload_surrogateFree, ← encodeUtf8_isSome, requestKey_eq h]
  constructor
  · rintro ⟨key, hkey⟩
    split at hkey
    · rename_i bytes hbytes
      exact ⟨bytes, hbytes⟩
    · cases hkey
  · rintro ⟨bytes, hbytes⟩
    exact ⟨_, by rw [hbytes]⟩

theorem stripPayload_plain {req : GatewayRequest} (h : req.bypassCache = false) :
    stripPayload req.providerPayload =
      [(str "model", .str (str req.model)),
       (str "messages", .arr ((plainMessages req.texts).map .obj)),
       (str "stream", .bool false)] := by
  have hstrip : ∀ ms : List (Role × PyStr), ((plainMessages ms).map Json.obj).map stripMessage =
      (plainMessages (ms.map fun e => (e.1, strip e.2))).map .obj := by
    intro ms
    unfold plainMessages
    simp only [List.map_map]
    refine List.map_congr_left fun e _ => ?_
    simp [plainMessage, stripMessage]
  rw [providerPayload_plain h, messageDicts_plain h]
  have htexts : req.texts = (req.messages.map fun m => (m.role, m.text)).map
      fun e => (e.1, strip e.2) := by
    rw [List.map_map]
    rfl
  rw [htexts, ← hstrip]
  simp [stripPayload]

section Law

variable {hexdigest : ByteArray → String} (hinj : Function.Injective hexdigest)
  {ctx ctx' : Failover.Context} {forced forced' : Option Provider} {v v' : Nat}
  (hforced : Failover.forcedProvider ctx = .ok forced)
  (hforced' : Failover.forcedProvider ctx' = .ok forced')
  (h : ctx.req.bypassCache = false) (h' : ctx'.req.bypassCache = false)

include hinj h h' in
/-- Keys are equal exactly for requests that agree. -/
theorem key_eq_iff {key key' : String}
    (hkey : requestKey hexdigest ctx.req forced v = .ok (some key))
    (hkey' : requestKey hexdigest ctx'.req forced' v' = .ok (some key')) :
    key = key' ↔ Agree ctx.req ctx'.req forced forced' v v' := by
  constructor
  · rintro rfl
    obtain ⟨hmessages, hprivacy, hscope, hquality, hcost, hlatency, hversion⟩ :=
      payload_inj (requestKey_payload hinj hkey hkey')
    exact ⟨hscope, hprivacy, hquality, hcost, hlatency, hversion, hmessages⟩
  · intro hagree
    have hmessages : ctx.req.texts = ctx'.req.texts := hagree.messages
    rw [requestKey_eq h, hmessages, hagree.scope, hagree.privacy, hagree.quality,
      hagree.maxCostUsd, hagree.latencyTargetMs, hagree.version, ← requestKey_eq h', hkey'] at hkey
    exact (Option.some.inj (Except.ok.inj hkey)).symm

include hforced hforced' h h' in
theorem payloads_agree (hagree : Agree ctx.req ctx'.req forced forced' v v') :
    stripPayload ctx.req.providerPayload = stripPayload ctx'.req.providerPayload := by
  have hmodel : ctx.req.model = ctx'.req.model := by
    rw [← cacheScope_eq hforced, ← cacheScope_eq hforced', hagree.scope]
  have hmessages : ctx.req.texts = ctx'.req.texts := hagree.messages
  rw [stripPayload_plain h, stripPayload_plain h', hmodel, hmessages]

include hinj hforced hforced' h h' in
/-- **The law of the key holds exactly for messages without surrogates.** -/
theorem keyLaw_iff : KeyLaw hexdigest ctx.req ctx'.req forced forced' v v' ↔
    NoSurrogates ctx.req ∧ NoSurrogates ctx'.req := by
  constructor
  · rintro ⟨key, key', hkey, hkey', -, -⟩
    exact ⟨(requestKey_isSome h).mp ⟨key, hkey⟩, (requestKey_isSome h').mp ⟨key', hkey'⟩⟩
  · rintro ⟨htexts, htexts'⟩
    obtain ⟨key, hkey⟩ : ∃ key, requestKey hexdigest ctx.req forced v = .ok (some key) :=
      (requestKey_isSome h).mpr htexts
    obtain ⟨key', hkey'⟩ : ∃ key, requestKey hexdigest ctx'.req forced' v' = .ok (some key) :=
      (requestKey_isSome h').mpr htexts'
    have hiff := key_eq_iff hinj h h' hkey hkey'
    exact ⟨key, key', hkey, hkey', hiff, fun heq =>
      payloads_agree hforced hforced' h h' (hiff.mp heq)⟩

end Law

/-! ## Two messages of the web client, and a surrogate -/

theorem auto_length : 1 ≤ "auto".length := by decide

/-- A request of the web client with one message. -/
def oneMessage (s : PyStr) : Failover.Context where
  providers := []
  req := GatewayRequest.plain "auto" [Message.user s] .default auto_length Nat.one_pos
  messages := [(Message.user s).modelDump]
  requiredCapabilities := []
  policy := defaultGatewayPolicy

theorem oneMessage_cached (s : PyStr) : (oneMessage s).req.bypassCache = false := by
  have hoptions : (oneMessage s).req.hasGenerationOptions = false := by
    unfold GatewayRequest.hasGenerationOptions GatewayRequest.providerPayload
    simp [oneMessage, GatewayRequest.plain, field]
  have hmeta : (oneMessage s).req.hasMessageMetadata = false := by
    unfold GatewayRequest.hasMessageMetadata Message.modelDump
    simp [oneMessage, GatewayRequest.plain, Message.user, field]
  simp only [GatewayRequest.bypassCache, hoptions, hmeta]
  rfl

theorem oneMessage_noSurrogates {s : PyStr} :
    NoSurrogates (oneMessage s).req ↔ SurrogateFree s := by
  simp [NoSurrogates, oneMessage, GatewayRequest.plain, Message.user, Message.text]

/-- The text that is hashed for "hello" under the first policy. -/
def helloPayload : String :=
  "[\x7b\"role\": \"user\", \"content\": \"hello\"\x7d]" ++ "|standard|auto|balanced|0.01|3000|1"

example : cachePayload (plainMessages [(.user, str "hello")]) "standard" "auto" "balanced"
    (.ofRat (1 / 100)) 3000 1 = str helloPayload := by decide +kernel

/-- SHA-256 of that payload; other bytes are written out. -/
def helloDigest (bytes : ByteArray) : String :=
  if bytes.data = helloPayload.toUTF8.data then
    "6f045ab7530f6a8156da3d5796443706db481cc69e11bc09504d9f86fb1e96e0"
  else String.ofList ('-' :: bytes.data.toList.map Char.ofUInt8)

theorem helloDigest_injective : Function.Injective helloDigest := by
  have hbyte : Function.Injective Char.ofUInt8 := fun b b' h =>
    UInt8.toUInt32_inj.mp (congrArg Char.val h)
  intro bytes bytes' h
  unfold helloDigest at h
  split_ifs at h with hhello hhello'
  · exact ByteArray.ext (hhello.trans hhello'.symm)
  · -- a digest does not start with the mark
    have hhead := congrArg (fun t => t.toList.head?) h
    simp at hhead
  · have hhead := congrArg (fun t => t.toList.head?) h
    simp at hhead
  · have hlist := (List.cons.inj (String.ofList_injective h)).2
    exact ByteArray.ext (Array.toList_inj.mp (hbyte.list_map hlist))

theorem keyLaw_hello : KeyLaw helloDigest (oneMessage (str "hello")).req
    (oneMessage (str " hello ")).req none none 1 1 :=
  (keyLaw_iff helloDigest_injective rfl rfl (oneMessage_cached _) (oneMessage_cached _)).mpr
    ⟨oneMessage_noSurrogates.mpr (surrogateFree_str _),
      oneMessage_noSurrogates.mpr (surrogateFree_str _)⟩

/-- A message that is one surrogate passes validation and has no key. -/
theorem surrogate_has_no_key : ∃ ctx : Failover.Context,
    Failover.forcedProvider ctx = .ok none ∧ ctx.req.bypassCache = false ∧
    ∀ (hexdigest : ByteArray → String) (v : Nat),
      requestKey hexdigest ctx.req none v = .error .unicodeEncodeError ∧
      ¬KeyLaw hexdigest ctx.req ctx.req none none v v := by
  have herror : ∀ (hexdigest : ByteArray → String) (v : Nat),
      requestKey hexdigest (oneMessage [0xd800]).req none v = .error .unicodeEncodeError := by
    intro hexdigest v
    rw [requestKey_eq (oneMessage_cached _)]
    split
    · rename_i bytes hbytes
      have htext := payload_surrogateFree.mp (encodeUtf8_isSome.mp ⟨bytes, hbytes⟩)
      have hsurrogate := oneMessage_noSurrogates.mp (noSurrogates_iff.mpr htext)
      exact absurd (hsurrogate 0xd800 List.mem_cons_self) (by decide)
    · rfl
  refine ⟨oneMessage [0xd800], rfl, oneMessage_cached _,
    fun hexdigest v => ⟨herror hexdigest v, ?_⟩⟩
  rintro ⟨key, -, hkey, -⟩
  rw [herror] at hkey
  cases hkey

end PolyGate.Gateway.CompleteKey
