import PolyGate.Gateway.AdapterHeap
import PolyGate.Gateway.CapabilityGate

/-!
# `Gateway/ProviderPayload.lean` — what adapting a request changes

`build_provider_payload` takes the payload of a request over the defaults of the registry entry. It
fails for defaults that are no object, for a `store` that the provider cannot honour and for a
non-text block that it cannot take; otherwise the messages and the options are those of the payload,
but for what the provider asks to be written differently (`adapts_iff`).
-/

namespace PolyGate.Gateway.ProviderPayload

open Lib
open CapabilityGate (TextTypes isVisualRequest)

/-! ## What an entry says -/

section Entries
variable (e : Entry)

/-- The defaults, where they are an object. -/
def defaultsOf : Obj :=
  match e.get? "request_defaults" with
  | some (.obj defaults) => defaults
  | _ => []

/-- There are defaults, and they are no object. -/
def BadDefaults : Prop :=
  ∃ v, e.get? "request_defaults" = some v ∧ v.truthy = true ∧ ∀ defaults, v ≠ .obj defaults

variable {e}

theorem requestDefaults_of_bad (h : BadDefaults e) :
    e.requestDefaults = .error (.payloadError (.invalidDefaults e.name)) := by
  obtain ⟨v, hv, htruthy, hobj⟩ := h
  unfold Entry.requestDefaults orEmpty
  rw [hv]
  dsimp only
  rw [if_pos htruthy]
  cases v with
  | obj defaults => exact absurd rfl (hobj defaults)
  | _ => rfl

theorem requestDefaults_of_not (h : ¬ BadDefaults e) :
    e.requestDefaults = .ok (defaultsOf e) := by
  unfold Entry.requestDefaults defaultsOf orEmpty
  cases hv : e.get? "request_defaults" with
  | none => rfl
  | some v =>
    cases htruthy : v.truthy with
    | false =>
      simp only [htruthy]
      cases v with
      | obj defaults =>
        cases defaults with
        | nil => rfl
        | cons kv defaults => cases htruthy
      | _ => rfl
    | true =>
      simp only [htruthy]
      cases v with
      | obj defaults => rfl
      | _ => exact absurd ⟨_, hv, htruthy, fun _ h => by cases h⟩ h

/-- The capability is granted by the capabilities. -/
def Grants (capabilities : Obj) (capability : String) : Bool :=
  (Obj.get? capabilities capability).any (·.isTrue)

theorem isCapable_eq {capabilities : Obj} (h : e.capabilities = .obj capabilities)
    (capability : String) : e.isCapable capability = .ok (Grants capabilities capability) := by
  unfold Entry.isCapable
  rw [h]
  rfl

end Entries

/-! ## Messages -/

section Messages
variable {name : String} {acceptsBlocks acceptsDeveloper : Bool} {source message : Obj}

/-- The role that a provider is told. -/
def toldRole (acceptsDeveloper : Bool) (role : Option Json) : Option Json :=
  if fieldIs "developer" role && !acceptsDeveloper then some (.str (str "system")) else role

/-- A message as it was and as it is sent. -/
structure SameMessage (acceptsBlocks acceptsDeveloper : Bool) (source message : Obj) : Prop where
  role : Obj.get? message "role" = toldRole acceptsDeveloper (Obj.get? source "role")
  text : messageText ((Obj.get? message "content").getD .null) =
    messageText ((Obj.get? source "content").getD .null)
  content : (acceptsBlocks = true ∨ ∀ blocks, Obj.get? source "content" ≠ some (.arr blocks)) →
    Obj.get? message "content" = Obj.get? source "content"
  string : acceptsBlocks = false → ∀ blocks, Obj.get? message "content" ≠ some (.arr blocks)
  other : ∀ k, k ≠ str "role" → k ≠ str "content" → message.lookup k = source.lookup k

theorem adaptRole_role (acceptsDeveloper : Bool) (source : Obj) :
    Obj.get? (adaptRole acceptsDeveloper source) "role" =
      toldRole acceptsDeveloper (Obj.get? source "role") := by
  unfold adaptRole toldRole
  split
  · rw [Obj.get?_setItem, if_pos rfl]
  · rfl

theorem adaptRole_other (acceptsDeveloper : Bool) (source : Obj) {k : PyStr}
    (hk : k ≠ str "role") : (adaptRole acceptsDeveloper source).lookup k = source.lookup k := by
  unfold adaptRole
  split
  · rw [lookup_setItem, if_neg hk]
  · rfl

/-- A message that keeps its content. -/
theorem sameMessage_adaptRole (h : acceptsBlocks = true ∨
    ∀ blocks, Obj.get? source "content" ≠ some (.arr blocks)) :
    SameMessage acceptsBlocks acceptsDeveloper source (adaptRole acceptsDeveloper source) where
  role := adaptRole_role acceptsDeveloper source
  text := by rw [adaptRole_content]
  content _ := adaptRole_content acceptsDeveloper source
  string hblocks := by
    rw [adaptRole_content]
    exact h.resolve_left (Bool.eq_false_iff.mp hblocks)
  other k hrole _ := adaptRole_other acceptsDeveloper source hrole

/-- A message whose blocks become a text. -/
theorem sameMessage_text {blocks : List Obj}
    (hcontent : Obj.get? source "content" = some (.arr (blocks.map .obj)))
    (h : ∀ block ∈ blocks, hashable block = true) :
    SameMessage false acceptsDeveloper source (setItem (adaptRole acceptsDeveloper source)
      (str "content") (.str (blocks.flatMap textOf))) where
  role := by
    rw [Obj.get?_setItem, if_neg (by decide)]
    exact adaptRole_role acceptsDeveloper source
  text := by
    rw [Obj.get?_setItem, if_pos rfl, hcontent]
    exact (messageText_eq h).symm
  content hkept := absurd hcontent ((hkept.resolve_left Bool.false_ne_true) _)
  string _ blocks := by
    rw [Obj.get?_setItem, if_pos rfl]
    exact fun heq => by cases heq
  other k hrole hkey := by
    rw [lookup_setItem, if_neg hkey]
    exact adaptRole_other acceptsDeveloper source hrole

/-- What is sent of a message of a request. -/
theorem normalizeSource_same {m : Message} (h : ∀ block ∈ m.blocks, hashable block = true)
    (hsource : normalizeSource name acceptsBlocks acceptsDeveloper (.obj m.modelDump) =
      .ok message) : SameMessage acceptsBlocks acceptsDeveloper m.modelDump message := by
  have hkept (hkeep : acceptsBlocks = true ∨
      ∀ blocks, Obj.get? m.modelDump "content" ≠ some (.arr blocks)) :
      SameMessage acceptsBlocks acceptsDeveloper m.modelDump message := by
    rw [normalizeSource_kept hkeep] at hsource
    rw [← Except.ok.inj hsource]
    exact sameMessage_adaptRole hkeep
  cases acceptsBlocks with
  | true => exact hkept (Or.inl rfl)
  | false =>
    rcases modelDump_blocks m with ⟨hcontent, -⟩ | hcontent
    · exact hkept (Or.inr hcontent)
    · rw [normalizeSource_blocks hcontent h] at hsource
      split at hsource
      · rw [← Except.ok.inj hsource]
        exact sameMessage_text hcontent h
      · cases hsource

/-- A role that was told is told again. -/
theorem not_developer_toldRole (acceptsDeveloper : Bool) (role : Option Json) :
    (fieldIs "developer" (toldRole acceptsDeveloper role) && !acceptsDeveloper) = false := by
  unfold toldRole
  split
  · rfl
  · rename_i h
    exact Bool.eq_false_iff.mpr h

/-- A message that was sent is sent again as it is. -/
theorem SameMessage.again (h : SameMessage acceptsBlocks acceptsDeveloper source message) :
    normalizeSource name acceptsBlocks acceptsDeveloper (.obj message) = .ok message := by
  have hrole : adaptRole acceptsDeveloper message = message := by
    unfold adaptRole
    rw [h.role, if_neg (Bool.eq_false_iff.mp (not_developer_toldRole _ _))]
  rw [normalizeSource_kept, hrole]
  cases acceptsBlocks with
  | true => exact Or.inl rfl
  | false => exact Or.inr (h.string rfl)

end Messages

/-! ## The body -/

section Bodies
variable {e : Entry} {capabilities payload body : Obj} {sources messages : List Obj}
  {options : Option Obj}

theorem pop_of_none {key : String} (h : Obj.get? body key = none) : Obj.pop body key = body :=
  List.filter_eq_self.mpr fun kv hkv => decide_eq_true (lookup_eq_none_iff.mp h kv hkv)

/-- A `store` that the provider cannot honour is left out. -/
def withStore (capabilities body : Obj) : Obj :=
  if Grants capabilities "store" then body else Obj.pop body "store"

/-- The options of a stream, with the usage. -/
def usageOptions (options : Option Obj) : Obj :=
  setItem (options.getD []) (str "include_usage") (.bool true)

/-- The usage is asked for. -/
def withUsage (options : Option Obj) (body : Obj) : Obj :=
  if (Obj.get? body "stream").any (·.truthy) then
    setItem body (str "stream_options") (.obj (usageOptions options))
  else body

theorem honorStore_eq (hcapabilities : e.capabilities = .obj capabilities)
    (hstore : Obj.get? body "store" = some (.bool true) → Grants capabilities "store" = true) :
    e.honorStore body = .ok (withStore capabilities body) := by
  unfold Entry.honorStore withStore
  cases hbody : Obj.get? body "store" with
  | none =>
    rw [pop_of_none hbody]
    simp
  | some store =>
    dsimp only
    rw [isCapable_eq hcapabilities]
    cases hgrants : Grants capabilities "store" with
    | true => rfl
    | false =>
      have hfalse : store.isTrue = false := by
        rw [Bool.eq_false_iff]
        intro htrue
        rw [Json.isTrue_iff] at htrue
        rw [hstore (hbody.trans (congrArg some htrue))] at hgrants
        cases hgrants
      show (if store.isTrue = true then _ else _) = _
      rw [hfalse]
      rfl

theorem honorStore_raises (hcapabilities : e.capabilities = .obj capabilities)
    (hstore : Obj.get? body "store" = some (.bool true))
    (hgrants : Grants capabilities "store" = false) :
    e.honorStore body = .error (.payloadError (.cannotHonorStore e.name)) := by
  unfold Entry.honorStore
  rw [hstore]
  dsimp only
  rw [isCapable_eq hcapabilities, hgrants]
  rfl

theorem requestUsage_eq (hoptions : Obj.get? body "stream_options" = options.map .obj) :
    Entry.requestUsage body = .ok (withUsage options body) := by
  unfold Entry.requestUsage withUsage
  split
  · have hdict : (orEmpty (Obj.get? body "stream_options")).toDict = .ok (options.getD []) := by
      rw [hoptions]
      cases options with
      | none => rfl
      | some options =>
        cases options with
        | nil => rfl
        | cons kv options => rfl
    rw [hdict]
    rfl
  · rfl

/-- The defaults, the payload over them, the entry's model and these messages. -/
def merged (e : Entry) (payload : Obj) (messages : List Obj) : Obj :=
  setItem (e.baseBody (defaultsOf e) payload) (str "messages") (.arr (messages.map .obj))

/-- What is sent. -/
def adapted (e : Entry) (capabilities : Obj) (options : Option Obj) (payload : Obj)
    (messages : List Obj) : Obj :=
  withUsage options (withStore capabilities (merged e payload messages))

theorem lookup_merged (hpayload : (payload.map (·.1)).Nodup) (k : PyStr) :
    (merged e payload messages).lookup k =
      if k = str "messages" then some (.arr (messages.map .obj))
      else if k = str "model" then some ((e.get? "model").getD (.str (str "default")))
      else if k = str "polygate" then none
      else (payload.lookup k).or ((defaultsOf e).lookup k) := by
  unfold merged Entry.baseBody
  rw [lookup_setItem, lookup_setItem, lookup_pop, lookup_update hpayload]

theorem lookup_withStore (k : PyStr) : (withStore capabilities body).lookup k =
    if k = str "store" ∧ Grants capabilities "store" = false then none else body.lookup k := by
  unfold withStore
  cases Grants capabilities "store" with
  | true => simp
  | false =>
    rw [if_neg Bool.false_ne_true, lookup_pop]
    simp

theorem lookup_withUsage (k : PyStr) : (withUsage options body).lookup k =
    if k = str "stream_options" ∧ (Obj.get? body "stream").any (·.truthy) = true then
      some (.obj (usageOptions options))
    else body.lookup k := by
  unfold withUsage
  split
  · rename_i h
    rw [lookup_setItem]
    simp only [h, and_true]
  · rename_i h
    rw [if_neg fun hk => h hk.2]

/-- **A payload whose parts can be adapted.** -/
theorem buildProviderPayload_adapted (hdefaults : ¬ BadDefaults e)
    (hcapabilities : e.capabilities = .obj capabilities) (hpayload : (payload.map (·.1)).Nodup)
    (hsources : Obj.get? payload "messages" = some (.arr (sources.map .obj)))
    (hmessages : sources.mapM (fun source => normalizeSource e.name
      (Grants capabilities "content_blocks") (Grants capabilities "developer_role")
      (.obj source)) = .ok messages)
    (hstore : (Obj.get? payload "store").or (Obj.get? (defaultsOf e) "store") =
      some (.bool true) → Grants capabilities "store" = true)
    (hoptions : (Obj.get? payload "stream_options").or (Obj.get? (defaultsOf e) "stream_options") =
      options.map .obj) :
    e.buildProviderPayload payload = .ok (adapted e capabilities options payload messages) := by
  have hbase : Obj.get? (e.baseBody (defaultsOf e) payload) "messages" =
      some (.arr (sources.map .obj)) := by
    rw [Entry.baseBody, Obj.get?_setItem, if_neg (by decide), Obj.get?_pop, if_neg (by decide),
      Obj.get?_update hpayload, hsources]
    rfl
  have hnormal : e.normalizeMessages (sources.map .obj) = .ok messages := by
    unfold Entry.normalizeMessages
    rw [isCapable_eq hcapabilities, isCapable_eq hcapabilities]
    show (sources.map Json.obj).mapM _ = _
    rw [List.mapM_map]
    exact hmessages
  refine (bind_of_eq_ok (requestDefaults_of_not hdefaults)).trans ?_
  dsimp only
  rw [hbase]
  refine (bind_of_eq_ok (a := sources.map Json.obj) rfl).trans ((bind_of_eq_ok hnormal).trans ?_)
  refine (bind_of_eq_ok (honorStore_eq hcapabilities ?_)).trans ?_
  · intro h
    refine hstore (Eq.trans ?_ h)
    show _ = (merged e payload messages).lookup (str "store")
    rw [lookup_merged hpayload]
    rfl
  · refine requestUsage_eq ((lookup_withStore _).trans ?_)
    rw [if_neg (by simp)]
    refine (lookup_merged hpayload _).trans ?_
    exact hoptions

end Bodies

/-! ## What is sent for a request -/

section Requests
variable {e : Entry} {capabilities : Obj} {req : GatewayRequest} {messages : List Obj}

/-- The `store` of the payload, else of the defaults. -/
def storeOf (e : Entry) (req : GatewayRequest) : Option Json :=
  (req.store.map .bool).or (Obj.get? (defaultsOf e) "store")

/-- What the provider cannot be sent. -/
def Refused (e : Entry) (capabilities : Obj) (req : GatewayRequest) : Prop :=
  BadDefaults e ∨
  storeOf e req = some (.bool true) ∧ Grants capabilities "store" = false ∨
  isVisualRequest req = true ∧ Grants capabilities "content_blocks" = false

/-- A request and the body that is sent for it. -/
structure Adapts (e : Entry) (capabilities : Obj) (req : GatewayRequest) (body : Obj) : Prop where
  polygate : Obj.get? body "polygate" = none
  model : Obj.get? body "model" = some ((e.get? "model").getD (.str (str "default")))
  messages : ∃ messages, Obj.get? body "messages" = some (.arr (messages.map .obj)) ∧
    List.Forall₂ (SameMessage (Grants capabilities "content_blocks")
      (Grants capabilities "developer_role")) req.messageDicts messages
  usage : req.stream = true → ∃ options, Obj.get? body "stream_options" = some (.obj options) ∧
    Obj.get? options "include_usage" = some (.bool true) ∧
    ∀ k ≠ str "include_usage", options.lookup k = (req.streamOptions.getD []).lookup k
  store : Obj.get? body "store" =
    if Grants capabilities "store" then storeOf e req else none
  other : ∀ k, k ∉ ["polygate", "model", "messages", "store"].map str →
    (req.stream = true → k ≠ str "stream_options") →
    body.lookup k = (req.providerPayload.lookup k).or ((defaultsOf e).lookup k)

/-- The messages can be sent. -/
theorem exists_messages (htypes : TextTypes req)
    (h : isVisualRequest req = true → Grants capabilities "content_blocks" = true) :
    ∃ messages, (req.messageDicts.mapM fun source => normalizeSource e.name
      (Grants capabilities "content_blocks") (Grants capabilities "developer_role")
      (.obj source)) = .ok messages := by
  cases hall : (req.messageDicts.mapM fun source => normalizeSource e.name
      (Grants capabilities "content_blocks") (Grants capabilities "developer_role")
      (.obj source)) with
  | ok messages => exact ⟨messages, rfl⟩
  | error err =>
    obtain ⟨source, hsource, herr⟩ := mapM_eq_error hall
    obtain ⟨m, hm, rfl⟩ := List.mem_map.mp hsource
    rcases CapabilityGate.normalizeSource_cases e.name _ (Grants capabilities "developer_role")
      (htypes.hashable hm) with ⟨-, d, hd⟩ | ⟨hblocks, hvisual, -⟩
    · cases hd.symm.trans herr
    · rw [h (List.any_eq_true.mpr ⟨m, hm, hvisual⟩)] at hblocks
      cases hblocks

/-- They are the messages of the request. -/
theorem same_messages (htypes : TextTypes req)
    (h : (req.messageDicts.mapM fun source => normalizeSource e.name
      (Grants capabilities "content_blocks") (Grants capabilities "developer_role")
      (.obj source)) = .ok messages) :
    List.Forall₂ (SameMessage (Grants capabilities "content_blocks")
      (Grants capabilities "developer_role")) req.messageDicts messages := by
  have hall := mapM_eq_ok_iff.mp h
  unfold GatewayRequest.messageDicts at hall ⊢
  rw [List.forall₂_map_left_iff] at hall ⊢
  have hboth := (List.forall₂_and_left req.messages messages).mpr ⟨fun m hm => hm, hall⟩
  exact hboth.imp fun m message ⟨hm, hnormal⟩ => normalizeSource_same (htypes.hashable hm) hnormal

/-- Sent again, they stay as they are. -/
theorem same_again {acceptsBlocks acceptsDeveloper : Bool} {sources : List Obj}
    (h : List.Forall₂ (SameMessage acceptsBlocks acceptsDeveloper) sources messages) :
    (messages.mapM fun source =>
      normalizeSource e.name acceptsBlocks acceptsDeveloper (.obj source)) = .ok messages := by
  refine mapM_eq_ok_iff.mpr ?_
  induction h with
  | nil => exact .nil
  | cons hm _ ih => exact .cons hm.again ih

/-- What the payload of a request comes to. -/
theorem build_payload (hdefaults : ¬ BadDefaults e)
    (hcapabilities : e.capabilities = .obj capabilities)
    (hoptions : Obj.get? (defaultsOf e) "stream_options" = none)
    (hstore : storeOf e req = some (.bool true) → Grants capabilities "store" = true)
    (hmessages : (req.messageDicts.mapM fun source => normalizeSource e.name
      (Grants capabilities "content_blocks") (Grants capabilities "developer_role")
      (.obj source)) = .ok messages) :
    e.buildProviderPayload req.providerPayload =
      .ok (adapted e capabilities req.streamOptions req.providerPayload messages) := by
  refine buildProviderPayload_adapted hdefaults hcapabilities payload_nodup payload_messages
    hmessages ?_ ?_
  · rw [payload_store]
    exact hstore
  · rw [hoptions, Option.or_none, payload_streamOptions]

theorem lookup_adapted {payload : Obj} {options : Option Obj}
    (hpayload : (payload.map (·.1)).Nodup) (k : PyStr) :
    (adapted e capabilities options payload messages).lookup k =
      if k = str "stream_options" ∧ ((Obj.get? payload "stream").or
          (Obj.get? (defaultsOf e) "stream")).any (·.truthy) = true then
        some (.obj (usageOptions options))
      else if k = str "store" ∧ Grants capabilities "store" = false then none
      else (merged e payload messages).lookup k := by
  have hstream : Obj.get? (withStore capabilities (merged e payload messages)) "stream" =
      (Obj.get? payload "stream").or (Obj.get? (defaultsOf e) "stream") := by
    refine (lookup_withStore _).trans ?_
    rw [if_neg (by simp)]
    exact lookup_merged hpayload _
  unfold adapted
  rw [lookup_withUsage, hstream, lookup_withStore]

theorem stream_truthy : ((Obj.get? req.providerPayload "stream").or
    (Obj.get? (defaultsOf e) "stream")).any (·.truthy) = req.stream := by
  rw [payload_stream]
  rfl

/-- **What is sent for a request.** -/
theorem adapts_adapted (htypes : TextTypes req)
    (hmessages : (req.messageDicts.mapM fun source => normalizeSource e.name
      (Grants capabilities "content_blocks") (Grants capabilities "developer_role")
      (.obj source)) = .ok messages) :
    Adapts e capabilities req
      (adapted e capabilities req.streamOptions req.providerPayload messages) where
  polygate := by
    refine (lookup_adapted payload_nodup _).trans ?_
    simp [lookup_merged payload_nodup]
  model := by
    refine (lookup_adapted payload_nodup _).trans ?_
    simp [lookup_merged payload_nodup]
  messages := by
    refine ⟨messages, (lookup_adapted payload_nodup _).trans ?_, same_messages htypes hmessages⟩
    simp [lookup_merged payload_nodup]
  usage hstream := by
    refine ⟨usageOptions req.streamOptions, (lookup_adapted payload_nodup _).trans ?_, ?_, ?_⟩
    · rw [stream_truthy, hstream, if_pos ⟨rfl, rfl⟩]
    · unfold usageOptions
      rw [Obj.get?_setItem, if_pos rfl]
    · intro k hk
      unfold usageOptions
      rw [lookup_setItem, if_neg hk]
  store := by
    refine (lookup_adapted payload_nodup _).trans ?_
    have hmerged : (merged e req.providerPayload messages).lookup (str "store") =
        storeOf e req := by
      unfold storeOf
      rw [lookup_merged payload_nodup, ← payload_store]
      rfl
    rw [hmerged]
    cases Grants capabilities "store" <;> simp
  other k hk hstream := by
    obtain ⟨hpolygate, hk⟩ := not_or.mp (List.mem_cons.not.mp hk)
    obtain ⟨hmodel, hk⟩ := not_or.mp (List.mem_cons.not.mp hk)
    obtain ⟨hmessages', hk⟩ := not_or.mp (List.mem_cons.not.mp hk)
    have hstore := List.mem_singleton.not.mp hk
    rw [lookup_adapted payload_nodup, stream_truthy, if_neg fun h => hstream h.2 h.1,
      if_neg fun h => hstore h.1, lookup_merged payload_nodup, if_neg hmessages', if_neg hmodel,
      if_neg hpolygate]

/-! ## Adapting again -/

theorem nodup_adapted {payload : Obj} {options : Option Obj}
    (hdict : ((defaultsOf e).map (·.1)).Nodup) :
    ((adapted e capabilities options payload messages).map (·.1)).Nodup := by
  have hmerged : ((merged e payload messages).map (·.1)).Nodup := by
    unfold merged Entry.baseBody
    exact nodup_setItem (nodup_setItem (nodup_pop (nodup_update hdict payload) _) _ _) _ _
  have hstore : ((withStore capabilities (merged e payload messages)).map (·.1)).Nodup := by
    unfold withStore
    split
    · exact hmerged
    · exact nodup_pop hmerged _
  unfold adapted withUsage
  split
  · exact nodup_setItem hstore _ _
  · exact hstore

/-- What is sent has the parts of what was sent. -/
theorem lookup_again {payload : Obj} {options options' : Option Obj}
    (hpayload : (payload.map (·.1)).Nodup) (hdict : ((defaultsOf e).map (·.1)).Nodup)
    (husage : usageOptions options' = usageOptions options) (k : PyStr) :
    (adapted e capabilities options' (adapted e capabilities options payload messages)
      messages).lookup k = (adapted e capabilities options payload messages).lookup k := by
  have hbody := @lookup_adapted e capabilities messages payload options hpayload
  have hstream : (Obj.get? (adapted e capabilities options payload messages) "stream").or
      (Obj.get? (defaultsOf e) "stream") =
        (Obj.get? payload "stream").or (Obj.get? (defaultsOf e) "stream") := by
    have hlookup : Obj.get? (adapted e capabilities options payload messages) "stream" =
        (Obj.get? payload "stream").or (Obj.get? (defaultsOf e) "stream") := by
      refine (hbody _).trans ?_
      rw [if_neg (by simp), if_neg (by simp)]
      exact lookup_merged hpayload _
    rw [hlookup]
    cases Obj.get? payload "stream" <;> simp
  rw [lookup_adapted (nodup_adapted hdict), hstream, husage, hbody]
  split
  · rfl
  · rename_i hoptions
    split
    · rfl
    · rename_i hstore
      rw [lookup_merged (nodup_adapted hdict), lookup_merged hpayload, hbody, if_neg hoptions,
        if_neg hstore, lookup_merged hpayload]
      by_cases hmessages : k = str "messages"
      · rw [if_pos hmessages, if_pos hmessages]
      · rw [if_neg hmessages, if_neg hmessages]
        by_cases hmodel : k = str "model"
        · rw [if_pos hmodel, if_pos hmodel]
        · rw [if_neg hmodel, if_neg hmodel]
          by_cases hpolygate : k = str "polygate"
          · rw [if_pos hpolygate, if_pos hpolygate]
          · rw [if_neg hpolygate, if_neg hpolygate]
            rw [Option.or_assoc, Option.or_self]

theorem usageOptions_again (options : Option Obj) :
    usageOptions (some (usageOptions options)) = usageOptions options :=
  setItem_setItem _ _ _

/-- **What is sent is sent again**, unless the defaults would bring back a `store` that was left
out. -/
theorem build_again (htypes : TextTypes req) (hdefaults : ¬ BadDefaults e)
    (hcapabilities : e.capabilities = .obj capabilities)
    (hdict : ((defaultsOf e).map (·.1)).Nodup)
    (hoptions : Obj.get? (defaultsOf e) "stream_options" = none)
    (hdefault : Obj.get? (defaultsOf e) "store" = some (.bool true) →
      Grants capabilities "store" = true)
    (hmessages : (req.messageDicts.mapM fun source => normalizeSource e.name
      (Grants capabilities "content_blocks") (Grants capabilities "developer_role")
      (.obj source)) = .ok messages) :
    ∃ again, e.buildProviderPayload
        (adapted e capabilities req.streamOptions req.providerPayload messages) = .ok again ∧
      ∀ k, again.lookup k =
        (adapted e capabilities req.streamOptions req.providerPayload messages).lookup k := by
  have hadapts := adapts_adapted (e := e) htypes hmessages
  have hsources : Obj.get? (adapted e capabilities req.streamOptions req.providerPayload messages)
      "messages" = some (.arr (messages.map .obj)) := by
    refine (lookup_adapted payload_nodup _).trans ?_
    simp [lookup_merged payload_nodup]
  -- where `store` was left out the default comes back, which is why it has to be granted
  have hstore : (Obj.get? (adapted e capabilities req.streamOptions req.providerPayload messages)
      "store").or (Obj.get? (defaultsOf e) "store") = some (.bool true) →
        Grants capabilities "store" = true := by
    rw [hadapts.store]
    cases hgrants : Grants capabilities "store" with
    | true => exact fun _ => rfl
    | false =>
      rw [if_neg Bool.false_ne_true, Option.none_or]
      exact fun h => absurd (hdefault h) (Bool.eq_false_iff.mp hgrants)
  have hoptions' : (Obj.get? (adapted e capabilities req.streamOptions req.providerPayload messages)
      "stream_options").or (Obj.get? (defaultsOf e) "stream_options") =
        (if req.stream then some (usageOptions req.streamOptions)
          else req.streamOptions).map .obj := by
    rw [hoptions, Option.or_none]
    refine (lookup_adapted payload_nodup _).trans ?_
    rw [stream_truthy]
    cases req.stream with
    | true => simp
    | false =>
      rw [if_neg (by simp), if_neg (by simp), lookup_merged payload_nodup]
      refine Eq.trans ?_ payload_streamOptions
      show (Obj.get? req.providerPayload "stream_options").or
        (Obj.get? (defaultsOf e) "stream_options") = _
      rw [hoptions, Option.or_none]
  refine ⟨_, buildProviderPayload_adapted hdefaults hcapabilities (nodup_adapted hdict) hsources
    (same_again (same_messages htypes hmessages)) hstore hoptions',
    lookup_again payload_nodup hdict ?_⟩
  cases req.stream with
  | true => exact usageOptions_again req.streamOptions
  | false => rfl

/-! ## What cannot be sent -/

/-- Defaults, blocks and `store`, in this order. -/
theorem rejects_of_refused (htypes : TextTypes req)
    (hcapabilities : e.capabilities = .obj capabilities) (h : Refused e capabilities req) :
    ∃ err, e.buildProviderPayload req.providerPayload = .error (.payloadError err) := by
  by_cases hdefaults : BadDefaults e
  · exact ⟨_, bind_of_eq_error (requestDefaults_of_bad hdefaults)⟩
  rw [buildProviderPayload_eq (requestDefaults_of_not hdefaults)]
  by_cases hvisual : isVisualRequest req = true ∧ Grants capabilities "content_blocks" = false
  · obtain ⟨err, herr⟩ := CapabilityGate.rejects_normalizeMessages htypes
      ((isCapable_eq hcapabilities _).trans (congrArg Except.ok hvisual.2))
      (isCapable_eq hcapabilities "developer_role") hvisual.1
    exact ⟨err, bind_of_eq_error herr⟩
  · obtain ⟨hstore, hgrants⟩ := (h.resolve_left hdefaults).resolve_right hvisual
    obtain ⟨messages, hmessages⟩ := @exists_messages e capabilities _ htypes fun h =>
      Classical.byContradiction fun hnot => hvisual ⟨h, Bool.eq_false_iff.mpr hnot⟩
    have hnormal : e.normalizeMessages (req.messageDicts.map .obj) = .ok messages := by
      rw [normalizeMessages_eq (isCapable_eq hcapabilities _) (isCapable_eq hcapabilities _)]
      unfold GatewayRequest.messageDicts at hmessages
      rw [List.mapM_map] at hmessages
      exact hmessages
    refine ⟨_, (bind_of_eq_ok hnormal).trans (bind_of_eq_error
      (honorStore_raises hcapabilities ?_ hgrants))⟩
    rw [Obj.get?_setItem, if_neg (by decide), baseBody_get? (by decide) (by decide), payload_store]
    exact hstore

/-- **What is sent of a request**: it is refused, or adapted and then stays as it is; and what it
was made from stays as it was. -/
theorem adapts_iff (htypes : TextTypes req) (hcapabilities : e.capabilities = .obj capabilities)
    (hdict : ((defaultsOf e).map (·.1)).Nodup)
    (hoptions : Obj.get? (defaultsOf e) "stream_options" = none) :
    ((∃ err, e.buildProviderPayload req.providerPayload = .error (.payloadError err)) ↔
      Refused e capabilities req) ∧
    (¬ Refused e capabilities req → ∃ body, e.buildProviderPayload req.providerPayload = .ok body ∧
      Adapts e capabilities req body ∧
      ((Obj.get? (defaultsOf e) "store" = some (.bool true) →
          Grants capabilities "store" = true) →
        ∃ again, e.buildProviderPayload body = .ok again ∧
          ∀ k, again.lookup k = body.lookup k)) ∧
    ∀ (h : AdapterHeap.Heap) (defaults payload : Nat),
      AdapterHeap.Holds h e defaults payload req.providerPayload → ∃ o dicts cells,
        AdapterHeap.run (AdapterHeap.buildProviderPayloadIn e defaults payload) h =
          (o, ⟨h.dicts ++ dicts, h.cells ++ cells⟩) ∧
        (o.map fun body => (AdapterHeap.Heap.mk (h.dicts ++ dicts) (h.cells ++ cells)).contents
          ((AdapterHeap.Heap.mk (h.dicts ++ dicts) (h.cells ++ cells)).cell body)) =
            e.buildProviderPayload req.providerPayload := by
  have hadapts : ¬ Refused e capabilities req → ∃ body,
      e.buildProviderPayload req.providerPayload = .ok body ∧ Adapts e capabilities req body ∧
      ((Obj.get? (defaultsOf e) "store" = some (.bool true) →
          Grants capabilities "store" = true) →
        ∃ again, e.buildProviderPayload body = .ok again ∧
          ∀ k, again.lookup k = body.lookup k) := by
    intro hnot
    obtain ⟨hdefaults, hnot⟩ := not_or.mp hnot
    obtain ⟨hstore, hvisual⟩ := not_or.mp hnot
    have hgrants (P : Prop) (capability : String)
        (h : ¬ (P ∧ Grants capabilities capability = false)) :
        P → Grants capabilities capability = true := fun hP =>
      Classical.byContradiction fun hnot => h ⟨hP, Bool.eq_false_iff.mpr hnot⟩
    obtain ⟨messages, hmessages⟩ := @exists_messages e capabilities _ htypes
      (hgrants _ _ hvisual)
    refine ⟨_, build_payload hdefaults hcapabilities hoptions (hgrants _ _ hstore) hmessages,
      adapts_adapted htypes hmessages, fun hdefault => ?_⟩
    exact build_again htypes hdefaults hcapabilities hdict hoptions hdefault hmessages
  refine ⟨⟨?_, rejects_of_refused htypes hcapabilities⟩, hadapts, fun h defaults payload hholds =>
    AdapterHeap.buildProviderPayloadIn_run hholds⟩
  rintro ⟨err, herr⟩
  by_contra hnot
  obtain ⟨body, hbody, -⟩ := hadapts hnot
  cases hbody.symm.trans herr

end Requests

open CapabilityGate (seeing imageRequest textTypes_imageRequest)

/-- An entry that takes images is sent one, and keeps nothing of the request but a copy. -/
theorem adapts_seeing : ∃ body,
    (seeing true).buildProviderPayload imageRequest.providerPayload = .ok body ∧
    Adapts (seeing true) [(str "vision", .bool true), (str "content_blocks", .bool true)]
      imageRequest body := by
  obtain ⟨-, hadapts, -⟩ := @adapts_iff (seeing true)
    [(str "vision", .bool true), (str "content_blocks", .bool true)] imageRequest
    textTypes_imageRequest rfl .nil rfl
  obtain ⟨body, hbody, hsame, -⟩ := hadapts (by
    rintro (⟨v, hv, htruthy, -⟩ | ⟨hstore, -⟩ | ⟨-, hblocks⟩)
    · rw [← Option.some.inj hv] at htruthy
      cases htruthy
    · cases hstore
    · cases hblocks)
  exact ⟨body, hbody, hsame⟩

/-! ## Defaults that are no object, and a `store` that is left out -/

/-- An entry without capabilities. -/
def plainEntry (requestDefaults : Json) : Entry where
  name := "plain-x"
  fields := [(str "name", .str (str "plain-x")), (str "request_defaults", requestDefaults),
    (str "capabilities", .obj [])]
  named := rfl

theorem one_le_greeting : 1 ≤ [Message.user (str "hello")].length := le_rfl

/-- A request with `store=false`. -/
def storeless : GatewayRequest := { imageRequest with
  messages := [.user (str "hello")]
  store := some false
  messages_pos := one_le_greeting }

theorem textTypes_storeless : TextTypes storeless := by
  intro m hm block hblock
  obtain rfl := List.mem_singleton.mp hm
  cases hblock

/-- An empty list of defaults is no object, and is taken for none; `store=false` is left out; and a
default `store` makes the body fail that was sent. -/
theorem not_only_objects : TextTypes storeless ∧
    (∃ body, (plainEntry (.arr [])).buildProviderPayload storeless.providerPayload = .ok body ∧
      Obj.get? storeless.providerPayload "store" = some (.bool false) ∧
      Obj.get? body "store" = none) ∧
    ∃ body, (plainEntry (.obj [(str "store", .bool true)])).buildProviderPayload
        storeless.providerPayload = .ok body ∧
      ∃ err, (plainEntry (.obj [(str "store", .bool true)])).buildProviderPayload body =
        .error err := by
  refine ⟨textTypes_storeless, ⟨_, rfl, rfl, rfl⟩, ⟨_, rfl, _, rfl⟩⟩

end PolyGate.Gateway.ProviderPayload
