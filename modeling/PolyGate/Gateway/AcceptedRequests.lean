import PolyGate.Gateway.BestProvider
import PolyGate.Gateway.CompleteKey
import PolyGate.Gateway.Adapters
import PolyGate.Gateway.Guardrails

/-!
# `Gateway/AcceptedRequests.lean` — what can go wrong with an accepted request

Validation takes content blocks as dictionaries of anything. `handled_iff` says for which requests
the functions between validation and the provider call raise only what their callers expect: an
`HTTPException`, the `RuntimeError` of a refusal, or a `ProviderPayloadError`.

A block whose type cannot be hashed is what they stumble on, but not always: the search for a visual
block stops at the first, and an adapter that takes blocks looks into none. The other two reasons
are a surrogate in a text that is to be hashed, and defaults with odd stream options.
-/

namespace PolyGate.Gateway.AcceptedRequests

open Lib

/-! ## The law -/

section
variable (entries : List Entry) (req : GatewayRequest) (health : Health)
  (policy : GatewayRoutingPolicy) (required : List String)

/-- The entry that the request goes to first. -/
def Chosen (e : Entry) : Prop :=
  Guardrails.forcedEntry entries req required = .ok (some e) ∨
    Guardrails.forcedEntry entries req required = .ok none ∧
      ∃ sel, selectProvider (entries.map (·.provider)) req.messageDicts req.polygate health required
        policy = .ok sel ∧ sel.chosen = e.provider

/-- Nothing unexpected is raised once the required capabilities are known. -/
structure Served : Prop where
  forced : ∀ err, Guardrails.forcedEntry entries req required ≠ .error (.shape err)
  selected : selectProvider (entries.map (·.provider)) req.messageDicts req.polygate health required
    policy ≠ .error .minOfEmpty
  built : ∀ e ∈ entries, Chosen entries req health policy required e →
    ∀ err, e.buildProviderPayload req.providerPayload ≠ .error (.shape err)

/-- Nothing unexpected is raised. -/
structure Handled (hexdigest : ByteArray → String) (version : Nat) : Prop where
  required : ∃ required, req.requiredCapabilities = .ok required
  key : ∀ forced, ∃ key, requestKey hexdigest req forced version = .ok key
  served : ∀ required, req.requiredCapabilities = .ok required →
    Served entries req health policy required

end

/-! ## When it holds -/

/-- The first message with a block that is no text. -/
def firstVisual (req : GatewayRequest) : Option Message :=
  req.messages.find? fun m => m.blocks.any visual

/-- The entry rejects neither a message nor `store`. -/
def Takes (e : Entry) (req : GatewayRequest) (defaults : Obj) : Prop :=
  (e.isCapable "content_blocks" = .ok true ∨ firstVisual req = none) ∧
    (e.isCapable "store" = .ok true ∨
      ((req.store.map .bool).or (Obj.get? defaults "store")).any (·.isTrue) = false)

/-- The adapter of the entry stumbles on nothing. -/
structure Adaptable (e : Entry) (req : GatewayRequest) (defaults : Obj) : Prop where
  blocks : e.isCapable "content_blocks" = .ok true ∨
    ∀ m ∈ firstVisual req, ∀ block ∈ m.blocks, hashable block = true
  streamOptions : Takes e req defaults → req.stream = true → req.streamOptions = none →
    ∃ d, (orEmpty (Obj.get? defaults "stream_options")).toDict = .ok d

structure Tame (entries : List Entry) (req : GatewayRequest) (health : Health)
    (policy : GatewayRoutingPolicy) : Prop where
  /-- the first visual block of the request says what it is -/
  types : ∀ m ∈ firstVisual req, ∀ block ∈ m.blocks.find? visual, hashable block = true
  texts : req.bypassCache = false → CompleteKey.NoSurrogates req
  adapted : ∀ required, req.requiredCapabilities = .ok required → ∀ e ∈ entries,
    Chosen entries req health policy required e → ∀ defaults, e.requestDefaults = .ok defaults →
      Adaptable e req defaults

/-! ## The required capabilities -/

section Required
variable {req : GatewayRequest} {m : Message} {block : Obj}

theorem isVisual_total_iff : (∃ b, isVisual block = .ok b) ↔ hashable block = true := by
  cases hhashable : hashable block with
  | true => exact ⟨fun _ => rfl, fun _ => ⟨_, isVisual_eq hhashable⟩⟩
  | false =>
    obtain ⟨e, he⟩ := isVisual_raises hhashable
    simp [he]

theorem isVisual_not_text (h : visual block = true) : isVisual block ≠ .ok false := by
  intro hok
  rw [isVisual_eq (isVisual_total_iff.mp ⟨_, hok⟩), h] at hok
  cases hok

theorem isVisual_text (h : visual block = false) : isVisual block = .ok false := by
  rw [isVisual_eq (hashable_of_not_visual h), h]

theorem anyM_blocks_iff (blocks : List Obj) : (∃ b, blocks.anyM isVisual = .ok b) ↔
    ∀ block ∈ blocks.find? visual, hashable block = true := by
  rw [anyM_total_iff (fun block _ => isVisual_text) fun block _ => isVisual_not_text]
  exact forall₂_congr fun block _ => isVisual_total_iff

/-- What the search does with one message. -/
theorem anyM_content (m : Message) : (match m.content with
    | some (.blocks bs) => bs.anyM isVisual
    | _ => pure false) = m.blocks.anyM isVisual := by
  unfold Message.blocks
  cases m.content with
  | none => rfl
  | some content =>
    cases content with
    | text s => rfl
    | blocks bs => rfl

theorem requiredCapabilities_total_iff : (∃ required, req.requiredCapabilities = .ok required) ↔
    ∀ m ∈ firstVisual req, ∀ block ∈ m.blocks.find? visual, hashable block = true := by
  have hany : (∃ b, req.messages.anyM (fun m => m.blocks.anyM isVisual) = .ok b) ↔
      ∀ m ∈ firstVisual req, ∀ block ∈ m.blocks.find? visual, hashable block = true := by
    rw [@anyM_total_iff _ _ _ (fun m : Message => m.blocks.any visual)]
    · exact forall₂_congr fun m _ => anyM_blocks_iff m.blocks
    · intro m _ hfree
      have hblocks : ∀ block ∈ m.blocks, isVisual block = .ok (visual block) := fun block hblock =>
        isVisual_eq (hashable_of_not_visual
          (Bool.eq_false_iff.mpr (List.any_eq_false.mp hfree block hblock)))
      rw [anyM_eq_ok hblocks, hfree]
    · intro m _ hany hfalse
      obtain ⟨block, hblock, hv⟩ := List.any_eq_true.mp hany
      exact isVisual_not_text hv (anyM_eq_ok_false.mp hfalse block hblock)
  have hcontent : (req.messages.anyM fun m => match m.content with
      | some (.blocks bs) => bs.anyM isVisual
      | _ => pure false) = req.messages.anyM fun m => m.blocks.anyM isVisual :=
    congrArg req.messages.anyM (funext anyM_content)
  rw [← hany]
  constructor
  · rintro ⟨required, h⟩
    obtain ⟨b, hb, -⟩ := bind_eq_ok.mp h
    exact ⟨b, hcontent.symm.trans hb⟩
  · rintro ⟨b, hb⟩
    exact ⟨_, bind_of_eq_ok (hcontent.trans hb)⟩

end Required

/-! ## The adapter -/

section Adapter
variable {e : Entry} {req : GatewayRequest} {m : Message} {blocks : List Obj} {defaults body : Obj}

theorem unsupported_raises (h : ∃ block ∈ blocks, hashable block = false) :
    ∃ err, unsupported (blocks.map .obj) = .error err := by
  induction blocks with
  | nil =>
    obtain ⟨block, hblock, -⟩ := h
    cases hblock
  | cons block blocks ih =>
    rw [List.map_cons, unsupported]
    cases hhashable : hashable block with
    | false =>
      obtain ⟨err, herr⟩ := isVisual_raises hhashable
      refine ⟨.typeError err.msg, ?_⟩
      rw [notText, herr]
      rfl
    | true =>
      obtain ⟨block', hblock', hodd⟩ := h
      rcases List.mem_cons.mp hblock' with rfl | hblock'
      · rw [hhashable] at hodd
        cases hodd
      · obtain ⟨err, herr⟩ := ih ⟨block', hblock', hodd⟩
        refine ⟨err, ?_⟩
        rw [notText_eq hhashable, herr]
        rfl

/-- A message of texts is taken by every adapter. -/
theorem normalizeSource_texts (name : String) (acceptsBlocks acceptsDeveloper : Bool)
    (h : m.blocks.any visual = false) :
    ∃ d, normalizeSource name acceptsBlocks acceptsDeveloper (.obj m.modelDump) = .ok d := by
  have hfree : ∀ block ∈ m.blocks, visual block = false := fun block hblock =>
    Bool.eq_false_iff.mpr (List.any_eq_false.mp h block hblock)
  cases acceptsBlocks with
  | true => exact ⟨_, normalizeSource_kept (Or.inl rfl)⟩
  | false =>
    rcases modelDump_blocks m with ⟨hcontent, -⟩ | hcontent
    · exact ⟨_, normalizeSource_kept (Or.inr hcontent)⟩
    · refine ⟨_, (normalizeSource_blocks hcontent fun block hblock =>
        hashable_of_not_visual (hfree block hblock)).trans (if_pos (visualTypes_eq_nil.mpr hfree))⟩

/-- A message with a visual block raises, and a block without a readable type decides what. -/
theorem normalizeSource_visual (name : String) (acceptsDeveloper : Bool)
    (h : m.blocks.any visual = true) :
    (∀ block ∈ m.blocks, hashable block = true) ∧
        (∃ err, normalizeSource name false acceptsDeveloper (.obj m.modelDump) =
          .error (.payloadError err)) ∨
      (¬ ∀ block ∈ m.blocks, hashable block = true) ∧
        ∃ err, normalizeSource name false acceptsDeveloper (.obj m.modelDump) =
          .error (.shape err) := by
  obtain ⟨block, hblock, hv⟩ := List.any_eq_true.mp h
  have hcontent : Obj.get? m.modelDump "content" = some (.arr (m.blocks.map .obj)) := by
    refine (modelDump_blocks m).resolve_left ?_
    rintro ⟨-, hnil⟩
    rw [hnil] at hblock
    cases hblock
  by_cases hhashable : ∀ block ∈ m.blocks, hashable block = true
  · have hne : visualTypes m.blocks ≠ [] := fun hnil =>
      Bool.eq_false_iff.mp (visualTypes_eq_nil.mp hnil block hblock) hv
    exact Or.inl ⟨hhashable, _, (normalizeSource_blocks hcontent hhashable).trans (if_neg hne)⟩
  · obtain ⟨odd, hodd⟩ := not_forall.mp hhashable
    obtain ⟨hmem, hodd⟩ := Classical.not_imp.mp hodd
    obtain ⟨err, herr⟩ := unsupported_raises ⟨odd, hmem, Bool.eq_false_iff.mpr hodd⟩
    exact Or.inr ⟨hhashable, err, normalizeSource_raises hcontent herr⟩

theorem isCapable_typed (htyped : e.WellTyped) (capability : String) :
    ∃ b, e.isCapable capability = .ok b := by
  obtain ⟨capabilities, hcapabilities⟩ := htyped.capabilities
  refine ⟨(Obj.get? capabilities capability).any (·.isTrue), ?_⟩
  unfold Entry.isCapable
  rw [hcapabilities]
  rfl

/-- The first message with a visual block decides for an entry that takes no blocks. -/
theorem normalizeMessages_cases (htyped : e.WellTyped) :
    ((e.isCapable "content_blocks" = .ok true ∨ firstVisual req = none) ∧
        ∃ ms, e.normalizeMessages (req.messageDicts.map .obj) = .ok ms) ∨
      (¬ (e.isCapable "content_blocks" = .ok true ∨ firstVisual req = none) ∧
        ((∀ m ∈ firstVisual req, ∀ block ∈ m.blocks, hashable block = true) ∧
            (∃ err, e.normalizeMessages (req.messageDicts.map .obj) = .error (.payloadError err)) ∨
          (¬ ∀ m ∈ firstVisual req, ∀ block ∈ m.blocks, hashable block = true) ∧
            ∃ err, e.normalizeMessages (req.messageDicts.map .obj) = .error (.shape err))) := by
  obtain ⟨acceptsBlocks, hblocks⟩ := isCapable_typed htyped "content_blocks"
  obtain ⟨acceptsDeveloper, hdeveloper⟩ := isCapable_typed htyped "developer_role"
  rw [normalizeMessages_eq hblocks hdeveloper, hblocks]
  have htexts : ∀ m ∈ req.messages, m.blocks.any visual = false → ∃ d,
      normalizeSource e.name acceptsBlocks acceptsDeveloper (.obj m.modelDump) = .ok d :=
    fun m _ h => normalizeSource_texts _ _ _ h
  cases acceptsBlocks with
  | true =>
    refine Or.inl ⟨Or.inl rfl, _, mapM_eq_ok fun m _ => normalizeSource_kept (Or.inl rfl)⟩
  | false =>
    cases hfirst : firstVisual req with
    | none => exact Or.inl ⟨Or.inr rfl, mapM_of_find_eq_none htexts hfirst⟩
    | some m =>
      refine Or.inr ⟨by simp, ?_⟩
      simp only [Option.mem_some_iff, forall_eq']
      have hvisual : m.blocks.any visual = true := by simpa using List.find?_some hfirst
      rcases normalizeSource_visual e.name acceptsDeveloper hvisual with
        ⟨hhashable, err, herr⟩ | ⟨hodd, err, herr⟩
      · exact Or.inl ⟨hhashable, err, mapM_of_find_eq_some htexts hfirst herr⟩
      · exact Or.inr ⟨hodd, err, mapM_of_find_eq_some htexts hfirst herr⟩

/-- `store` is honoured, left out or rejected, and nothing else changes. -/
theorem honorStore_cases (htyped : e.WellTyped) (body : Obj) :
    ((e.isCapable "store" = .ok true ∨ (Obj.get? body "store").any (·.isTrue) = false) ∧
        ∃ body', e.honorStore body = .ok body' ∧
          ∀ key, key ≠ "store" → Obj.get? body' key = Obj.get? body key) ∨
      (¬ (e.isCapable "store" = .ok true ∨ (Obj.get? body "store").any (·.isTrue) = false) ∧
        ∃ err, e.honorStore body = .error (.payloadError err)) := by
  obtain ⟨capable, hcapable⟩ := isCapable_typed htyped "store"
  unfold Entry.honorStore
  rw [hcapable]
  cases hstore : Obj.get? body "store" with
  | none => exact Or.inl ⟨Or.inr rfl, body, rfl, fun _ _ => rfl⟩
  | some store =>
    cases capable with
    | true => exact Or.inl ⟨Or.inl rfl, body, rfl, fun _ _ => rfl⟩
    | false =>
      cases htrue : store.isTrue with
      | true =>
        refine Or.inr ⟨by simp [htrue], .cannotHonorStore e.name, ?_⟩
        show (if store.isTrue then _ else _) = _
        rw [htrue]
        rfl
      | false =>
        refine Or.inl ⟨Or.inr (by simp [htrue]), Obj.pop body "store", ?_, fun key hkey => ?_⟩
        · show (if store.isTrue then _ else _) = _
          rw [htrue]
          rfl
        · rw [Obj.get?_pop, if_neg hkey]

/-- The stream options of a streamed request come from the client or from the defaults. -/
theorem requestUsage_iff (hstream : Obj.get? body "stream" = some (.bool req.stream))
    (hoptions : Obj.get? body "stream_options" =
      (req.streamOptions.map Json.obj).or (Obj.get? defaults "stream_options")) :
    (∀ err, Entry.requestUsage body ≠ .error (.shape err)) ↔
      (req.stream = true → req.streamOptions = none →
        ∃ d, (orEmpty (Obj.get? defaults "stream_options")).toDict = .ok d) := by
  unfold Entry.requestUsage
  rw [hstream, hoptions]
  cases req.stream with
  | false => exact ⟨fun _ h => absurd h Bool.false_ne_true, fun _ err h => by cases h⟩
  | true =>
    cases req.streamOptions with
    | some o =>
      have hdict : ∃ d, (orEmpty (some (.obj o))).toDict = .ok d := by
        show ∃ d, (if (Json.obj o).truthy then Json.obj o else .obj []).toDict = .ok d
        split
        · exact ⟨o, rfl⟩
        · exact ⟨[], rfl⟩
      obtain ⟨d, hd⟩ := hdict
      refine ⟨fun _ _ h => (by cases h), fun _ err h => ?_⟩
      change ((orEmpty (some (.obj o))).toDict.mapError AdapterExc.shape >>= _) = _ at h
      rw [hd] at h
      cases h
    | none =>
      change (∀ err, ((orEmpty (Obj.get? defaults "stream_options")).toDict.mapError
        AdapterExc.shape >>= _) ≠ _) ↔ _
      cases hd : (orEmpty (Obj.get? defaults "stream_options")).toDict with
      | ok d => exact ⟨fun _ _ _ => ⟨d, rfl⟩, fun _ err h => by cases h⟩
      | error err =>
        refine ⟨fun h => absurd rfl (h err), fun h => ?_⟩
        obtain ⟨d, hd'⟩ := h rfl rfl
        cases hd'

/-- **When an adapter stumbles.** -/
theorem buildProviderPayload_iff (htyped : e.WellTyped) :
    (∀ err, e.buildProviderPayload req.providerPayload ≠ .error (.shape err)) ↔
      ∀ defaults, e.requestDefaults = .ok defaults → Adaptable e req defaults := by
  cases hdefaults : e.requestDefaults with
  | error err =>
    refine ⟨fun _ _ h => (by cases h), fun _ err' h => ?_⟩
    unfold Entry.buildProviderPayload at h
    rw [hdefaults] at h
    cases h
    unfold Entry.requestDefaults at hdefaults
    split at hdefaults <;> cases hdefaults
  | ok defaults =>
    simp only [Except.ok.injEq, forall_eq']
    rw [buildProviderPayload_eq hdefaults]
    have hnone (h : firstVisual req = none) : ∀ m ∈ firstVisual req, ∀ block ∈ m.blocks,
        hashable block = true := by
      intro m hm
      rw [h] at hm
      cases hm
    rcases @normalizeMessages_cases e req htyped with ⟨htakes, ms, hms⟩ | ⟨hnot, hrest⟩
    · -- the messages are taken: what is left is `store`, then the stream options
      rw [bind_of_eq_ok hms]
      have hstore : Obj.get? (setItem (e.baseBody defaults req.providerPayload) (str "messages")
          (.arr (ms.map .obj))) "store" =
          (req.store.map Json.bool).or (Obj.get? defaults "store") := by
        rw [Obj.get?_setItem, if_neg (by decide), baseBody_get? (by decide) (by decide),
          payload_store]
      have hblocks := htakes.imp_right hnone
      rcases honorStore_cases htyped (setItem (e.baseBody defaults req.providerPayload)
        (str "messages") (.arr (ms.map .obj)))
      with ⟨hhonors, body, hbody, hsame⟩ | ⟨hrejects, err, herr⟩
      · rw [hstore] at hhonors
        have husage := @requestUsage_iff req defaults body (by
          rw [hsame _ (by decide), Obj.get?_setItem, if_neg (by decide),
            baseBody_get? (by decide) (by decide), payload_stream]
          rfl) (by
          rw [hsame _ (by decide), Obj.get?_setItem, if_neg (by decide),
            baseBody_get? (by decide) (by decide), payload_streamOptions])
        rw [bind_of_eq_ok hbody]
        exact husage.trans
          ⟨fun h => ⟨hblocks, fun _ => h⟩, fun h => h.streamOptions ⟨htakes, hhonors⟩⟩
      · rw [hstore] at hrejects
        rw [bind_of_eq_error herr]
        exact ⟨fun _ => ⟨hblocks, fun h => absurd h.2 hrejects⟩, fun _ err' h => by cases h⟩
    · rcases hrest with ⟨hhashable, err, herr⟩ | ⟨hodd, err, herr⟩
      · rw [bind_of_eq_error herr]
        exact ⟨fun _ => ⟨Or.inr hhashable, fun h => absurd h.1 hnot⟩, fun _ err' h => by cases h⟩
      · rw [bind_of_eq_error herr]
        refine ⟨fun h => absurd rfl (h err), fun h => ?_⟩
        exact absurd h.blocks (not_or.mpr ⟨fun hb => hnot (Or.inl hb), hodd⟩)

end Adapter

/-! ## The request as a whole -/

section Whole
variable {entries : List Entry} {req : GatewayRequest} {health : Health}
  {policy : GatewayRoutingPolicy} {required : List String}

theorem forcedEntry_shape (htyped : ∀ e ∈ entries, e.WellTyped) (err : ShapeError) :
    Guardrails.forcedEntry entries req required ≠ .error (.shape err) := by
  intro h
  obtain ⟨r, hr, -⟩ := @Guardrails.forcedProvider_map _ req required htyped defaultGatewayPolicy
  rw [hr] at h
  cases r with
  | ok forced => cases h
  | error d => cases h

theorem requestKey_total_iff {hexdigest : ByteArray → String} {version : Nat} :
    (∀ forced, ∃ key, requestKey hexdigest req forced version = .ok key) ↔
      (req.bypassCache = false → CompleteKey.NoSurrogates req) := by
  cases hbypass : req.bypassCache with
  | true =>
    refine ⟨fun _ h => absurd h (by simp), fun _ forced => ⟨none, ?_⟩⟩
    rw [requestKey, if_pos hbypass]
    rfl
  | false =>
    rw [forall_prop_of_true rfl]
    constructor
    · intro h
      obtain ⟨key, hkey⟩ := h none
      cases key with
      | some key => exact (CompleteKey.requestKey_isSome hbypass).mp ⟨key, hkey⟩
      | none =>
        rw [requestKey_eq hbypass] at hkey
        split at hkey <;> cases hkey
    · intro htexts forced
      obtain ⟨key, hkey⟩ := (@CompleteKey.requestKey_isSome hexdigest req forced version
        hbypass).mpr htexts
      exact ⟨some key, hkey⟩

theorem served_iff (htyped : ∀ e ∈ entries, e.WellTyped) :
    Served entries req health policy required ↔
      ∀ e ∈ entries, Chosen entries req health policy required e →
        ∀ defaults, e.requestDefaults = .ok defaults → Adaptable e req defaults := by
  constructor
  · intro h e he hchosen
    exact (buildProviderPayload_iff (htyped e he)).mp (h.built e he hchosen)
  · intro h
    exact {
      forced := forcedEntry_shape htyped
      selected := BestProvider.selectProvider_ne_minOfEmpty
      built := fun e he hchosen => (buildProviderPayload_iff (htyped e he)).mpr (h e he hchosen) }

/-- **Which accepted requests are handled.** -/
theorem handled_iff (htyped : ∀ e ∈ entries, e.WellTyped) (hexdigest : ByteArray → String)
    (version : Nat) :
    Handled entries req health policy hexdigest version ↔ Tame entries req health policy := by
  constructor
  · intro h
    exact {
      types := requiredCapabilities_total_iff.mp h.required
      texts := requestKey_total_iff.mp h.key
      adapted := fun required hrequired => (served_iff htyped).mp (h.served required hrequired) }
  · intro h
    exact {
      required := requiredCapabilities_total_iff.mpr h.types
      key := requestKey_total_iff.mpr h.texts
      served := fun required hrequired => (served_iff htyped).mpr (h.adapted required hrequired) }

end Whole

/-! ## Two requests -/

theorem blockRequest_pos (block : Obj) : 1 ≤ [Message.userBlocks [block]].length := le_rfl

/-- A user message with one block. -/
def blockRequest (block : Obj) : GatewayRequest :=
  .plain "auto" [.userBlocks [block]] .default CompleteKey.auto_length (blockRequest_pos block)

def textBlock : Obj := [(str "type", .str (str "text")), (str "text", .str (str "hello"))]

theorem wellTyped_local : ∀ e ∈ [Guardrails.localEntry "internal"], e.WellTyped := by
  intro e he
  obtain rfl := List.mem_singleton.mp he
  exact {
    capabilities := ⟨[], rfl⟩
    typicalLatencyMs := fun h => by cases h
    pricePer1kInput := fun h => by cases h
    pricePer1kOutput := fun h => by cases h }

theorem handled_text : Handled [Guardrails.localEntry "internal"] (blockRequest textBlock)
    BestProvider.upAndRunning defaultGatewayPolicy (fun _ => "00") 1 := by
  refine (handled_iff wellTyped_local _ 1).mpr ⟨?_, ?_, ?_⟩
  · intro m hm
    cases hm
  · intro h
    cases h
  · intro required _ e _ _ defaults _
    exact ⟨Or.inr fun m hm => (by cases hm), fun _ h => (by cases h)⟩

/-- **A block whose type is a list is accepted, and stumbled on.** -/
theorem odd_type_raises : ∃ err,
    (blockRequest [(str "type", .arr [])]).requiredCapabilities = .error err ∧
      ¬ Handled [Guardrails.localEntry "internal"] (blockRequest [(str "type", .arr [])])
        BestProvider.upAndRunning defaultGatewayPolicy (fun _ => "00") 1 := by
  refine ⟨_, rfl, fun h => ?_⟩
  obtain ⟨required, hrequired⟩ := h.required
  cases hrequired

end PolyGate.Gateway.AcceptedRequests
