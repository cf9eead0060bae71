import PolyGate.Gateway.Adapters

/-!
# `Gateway/CapabilityGate.lean` — what the capability gate promises the adapter

The gate and the adapter read a request independently. For a block that is no text the gate asks for
`vision`, while the adapter asks for `content_blocks`; for `store` both ask for the same. So an
entry that passes the gate fails in the adapter exactly when it sees, but takes no blocks
(`gate_sound_iff`).
-/

namespace PolyGate.Gateway.CapabilityGate

open Lib

variable {e : Entry} {req : GatewayRequest} {required : List String}

/-- The content-block types are texts or absent. -/
def TextTypes (req : GatewayRequest) : Prop :=
  ∀ m ∈ req.messages, ∀ block ∈ m.blocks, ∀ v, Obj.get? block "type" = some v → ∃ s, v = .str s

theorem TextTypes.hashable (h : TextTypes req) {m : Message} (hm : m ∈ req.messages) :
    ∀ block ∈ m.blocks, hashable block = true := by
  intro block hblock
  unfold Gateway.hashable
  cases htype : Obj.get? block "type" with
  | none => rfl
  | some v =>
    obtain ⟨s, rfl⟩ := h m hm block hblock v htype
    rfl

/-! ## What the gate asks for -/

/-- Some message has a block that is no text. -/
def isVisualRequest (req : GatewayRequest) : Bool :=
  req.messages.any fun m => (m.blocks).any visual

theorem requiredCapabilities_eq (h : TextTypes req) : req.requiredCapabilities = .ok
    ((if req.stream then ["streaming"] else []) ++
      (if truthyList req.tools || req.messages.any (·.usesTools) then ["tools"] else []) ++
      (if req.parallelToolCalls = some true then ["parallel_tool_calls"] else []) ++
      (if req.store = some true then ["store"] else []) ++
      (if isVisualRequest req then ["vision"] else [])) := by
  refine (bind_of_eq_ok (a := isVisualRequest req) (anyM_eq_ok fun m hm => ?_)).trans rfl
  have hblocks := h.hashable hm
  unfold Message.blocks at hblocks ⊢
  cases hcontent : m.content with
  | none => rfl
  | some content =>
    rw [hcontent] at hblocks
    cases content with
    | text s => rfl
    | blocks bs => exact anyM_eq_ok fun block hblock => isVisual_eq (hblocks block hblock)

theorem vision_mem_iff (h : TextTypes req) (hreq : req.requiredCapabilities = .ok required) :
    "vision" ∈ required ↔ isVisualRequest req = true := by
  rw [requiredCapabilities_eq h] at hreq
  obtain rfl := Except.ok.inj hreq
  have hite (P : Prop) [Decidable P] (c : String) :
      "vision" ∈ (if P then [c] else []) ↔ P ∧ "vision" = c := by
    by_cases hP : P
    · simp [hP]
    · simp [hP]
  simp only [List.mem_append, hite]
  simp

theorem store_mem (h : TextTypes req) (hreq : req.requiredCapabilities = .ok required)
    (hstore : req.store = some true) : "store" ∈ required := by
  rw [requiredCapabilities_eq h] at hreq
  obtain rfl := Except.ok.inj hreq
  simp [hstore]

/-! ## What the adapter makes of the request -/

/-- The provider does not reject the payload. -/
def Accepts {α : Type} (built : Except AdapterExc α) : Prop :=
  ∀ err, built ≠ .error (.payloadError err)

theorem accepts_requestUsage (body : Obj) : Accepts (Entry.requestUsage body) := by
  intro err h
  unfold Entry.requestUsage at h
  split at h
  · rcases bind_eq_error.mp h with h | ⟨_, -, h⟩
    · cases hdict : (orEmpty (Obj.get? body "stream_options")).toDict with
      | error e =>
        rw [hdict] at h
        cases h
      | ok d =>
        rw [hdict] at h
        cases h
    · cases h
  · cases h

/-- What is asked for with `store` is honoured, if the gate has asked for it. -/
theorem accepts_honorStore {body : Obj} (hbody : Obj.get? body "store" = req.store.map .bool)
    (hstore : req.store = some true → e.isCapable "store" = .ok true) :
    Accepts (e.honorStore body) := by
  intro err h
  unfold Entry.honorStore at h
  rw [hbody] at h
  cases hreq : req.store with
  | none =>
    rw [hreq] at h
    cases h
  | some store =>
    rw [hreq] at h
    dsimp only [Option.map_some] at h
    cases store with
    | true =>
      rw [hstore hreq] at h
      cases h
    | false =>
      cases hcapable : e.isCapable "store" with
      | error e =>
        rw [hcapable] at h
        cases h
      | ok capable =>
        rw [hcapable] at h
        cases capable <;> cases h

/-- A message is rejected for a visual block in it, by a provider that takes no blocks. -/
theorem normalizeSource_cases (name : String) (acceptsBlocks acceptsDeveloper : Bool) {m : Message}
    (h : ∀ block ∈ m.blocks, hashable block = true) :
    (acceptsBlocks = true ∨ m.blocks.any visual = false) ∧
        (∃ d, normalizeSource name acceptsBlocks acceptsDeveloper (.obj m.modelDump) = .ok d) ∨
      acceptsBlocks = false ∧ m.blocks.any visual = true ∧
        normalizeSource name acceptsBlocks acceptsDeveloper (.obj m.modelDump) =
          .error (.payloadError (.contentBlocks name (visualTypes m.blocks))) := by
  cases acceptsBlocks with
  | true => exact Or.inl ⟨Or.inl rfl, _, normalizeSource_kept (Or.inl rfl)⟩
  | false =>
    rcases modelDump_blocks m with ⟨hcontent, hnil⟩ | hcontent
    · exact Or.inl ⟨Or.inr (by rw [hnil]; rfl), _, normalizeSource_kept (Or.inr hcontent)⟩
    · rw [normalizeSource_blocks hcontent h]
      cases hvisual : m.blocks.any visual with
      | false =>
        have hnil : visualTypes m.blocks = [] := visualTypes_eq_nil.mpr fun block hblock =>
          Bool.eq_false_iff.mpr (List.any_eq_false.mp hvisual block hblock)
        rw [if_pos hnil]
        exact Or.inl ⟨Or.inr rfl, _, rfl⟩
      | true =>
        obtain ⟨block, hblock, hv⟩ := List.any_eq_true.mp hvisual
        have hne : visualTypes m.blocks ≠ [] := fun hnil =>
          Bool.eq_false_iff.mp (visualTypes_eq_nil.mp hnil block hblock) hv
        rw [if_neg hne]
        exact Or.inr ⟨rfl, rfl, rfl⟩

theorem accepts_normalizeMessages (htypes : TextTypes req)
    (hok : e.isCapable "content_blocks" = .ok true ∨ isVisualRequest req = false) :
    Accepts (e.normalizeMessages (req.messageDicts.map .obj)) := by
  intro err h
  cases hblocks : e.isCapable "content_blocks" with
  | error e' =>
    rw [Entry.normalizeMessages, hblocks] at h
    cases h
  | ok acceptsBlocks =>
    cases hdeveloper : e.isCapable "developer_role" with
    | error e' =>
      rw [Entry.normalizeMessages, hblocks, hdeveloper] at h
      cases h
    | ok acceptsDeveloper =>
      rw [normalizeMessages_eq hblocks hdeveloper] at h
      obtain ⟨m, hm, h⟩ := mapM_eq_error h
      rcases normalizeSource_cases e.name acceptsBlocks acceptsDeveloper (htypes.hashable hm) with
        ⟨-, d, hd⟩ | ⟨rfl, hvisual, -⟩
      · cases hd.symm.trans h
      · rcases hok with hok | hok
        · cases hblocks.symm.trans hok
        · exact absurd hvisual (List.any_eq_false.mp hok m hm)

/-- A visual block is rejected by a provider that takes no blocks. -/
theorem rejects_normalizeMessages {acceptsDeveloper : Bool} (htypes : TextTypes req)
    (hblocks : e.isCapable "content_blocks" = .ok false)
    (hdeveloper : e.isCapable "developer_role" = .ok acceptsDeveloper)
    (hvisual : isVisualRequest req = true) :
    ∃ err, e.normalizeMessages (req.messageDicts.map .obj) = .error (.payloadError err) := by
  rw [normalizeMessages_eq hblocks hdeveloper]
  obtain ⟨m, hm, hany⟩ := List.any_eq_true.mp hvisual
  obtain ⟨e', he'⟩ : ∃ e', (req.messages.mapM fun m =>
      normalizeSource e.name false acceptsDeveloper (.obj m.modelDump)) = .error e' := by
    rcases normalizeSource_cases e.name false acceptsDeveloper (htypes.hashable hm) with
      ⟨hfree, -⟩ | ⟨-, -, herr⟩
    · exact absurd hany (Bool.eq_false_iff.mp (hfree.resolve_left Bool.false_ne_true))
    · exact mapM_raises hm herr
  obtain ⟨m', hm', herr⟩ := mapM_eq_error he'
  rcases normalizeSource_cases e.name false acceptsDeveloper (htypes.hashable hm') with
    ⟨-, d, hd⟩ | ⟨-, -, hrejected⟩
  · cases hd.symm.trans herr
  · cases herr.symm.trans hrejected
    exact ⟨_, he'⟩

/-- **The gate is sound for the adapter, but for providers that see and take no blocks.** -/
theorem gate_sound_iff {defaults : Obj} (hdefaults : e.requestDefaults = .ok defaults)
    (hstore : Obj.get? defaults "store" = none) (htypes : TextTypes req)
    (hreq : req.requiredCapabilities = .ok required)
    (hgate : e.missingCapabilities required = .ok []) :
    Accepts (e.buildProviderPayload req.providerPayload) ↔
      e.isCapable "content_blocks" = .ok true ∨ isVisualRequest req = false := by
  have hcapable := missingCapabilities_eq_nil_iff.mp hgate
  have hhonored : req.store = some true → e.isCapable "store" = .ok true :=
    fun h => hcapable "store" (store_mem htypes hreq h)
  rw [buildProviderPayload_eq hdefaults]
  constructor
  · intro haccepts
    by_contra hnot
    obtain ⟨hblocks, hvisual⟩ := not_or.mp hnot
    rw [Bool.not_eq_false] at hvisual
    -- the gate has found the capabilities to be an object
    have hseen := hcapable "vision" ((vision_mem_iff htypes hreq).mpr hvisual)
    obtain ⟨acceptsBlocks, haccepts'⟩ := @isCapable_total _ _ "content_blocks" _ hseen
    obtain ⟨acceptsDeveloper, hdeveloper⟩ := @isCapable_total _ _ "developer_role" _ hseen
    cases acceptsBlocks with
    | true => exact hblocks haccepts'
    | false =>
      obtain ⟨err, hrejected⟩ := rejects_normalizeMessages htypes haccepts' hdeveloper hvisual
      rw [hrejected] at haccepts
      exact haccepts err rfl
  · intro hok err h
    rcases bind_eq_error.mp h with h | ⟨messages, -, h⟩
    · exact accepts_normalizeMessages htypes hok err h
    · rcases bind_eq_error.mp h with h | ⟨body, -, h⟩
      · refine accepts_honorStore ?_ hhonored err h
        rw [Obj.get?_setItem, if_neg (by decide), baseBody_get? (by decide) (by decide), hstore,
          Option.or_none, payload_store]
      · exact accepts_requestUsage body err h

/-! ## Two providers -/

/-- An entry that sees; whether it takes content blocks is left open. -/
def seeing (contentBlocks : Bool) : Entry where
  name := "vision-x"
  fields := [(str "name", .str (str "vision-x")), (str "request_defaults", .obj []),
    (str "capabilities",
      .obj [(str "vision", .bool true), (str "content_blocks", .bool contentBlocks)])]
  named := rfl

/-- A user message with an image. -/
def imageMessage : Message := .userBlocks [[(str "type", .str (str "image_url"))]]

theorem one_pos : 1 ≤ "auto".length := by decide

theorem oneMessage_pos : 1 ≤ [imageMessage].length := le_rfl

def imageRequest : GatewayRequest :=
  .plain "auto" [imageMessage] .default one_pos oneMessage_pos

theorem textTypes_imageRequest : TextTypes imageRequest := by
  intro m hm block hblock v hv
  obtain rfl := List.mem_singleton.mp hm
  obtain rfl := List.mem_singleton.mp hblock
  exact ⟨_, (Option.some.inj hv).symm⟩

theorem gate_sound_seeing :
    Accepts ((seeing true).buildProviderPayload imageRequest.providerPayload) :=
  (@gate_sound_iff (seeing true) imageRequest _ [] rfl rfl textTypes_imageRequest rfl rfl).mpr
    (Or.inl rfl)

/-- **The gate lets an image through to a provider whose adapter rejects it.** -/
theorem image_rejected : TextTypes imageRequest ∧
    imageRequest.requiredCapabilities = .ok ["vision"] ∧ (seeing false).requestDefaults = .ok [] ∧
    (seeing false).missingCapabilities ["vision"] = .ok [] ∧
    ¬ Accepts ((seeing false).buildProviderPayload imageRequest.providerPayload) := by
  refine ⟨textTypes_imageRequest, rfl, rfl, rfl, fun h => ?_⟩
  exact h (.contentBlocks "vision-x" [.str (str "image_url")]) rfl

end PolyGate.Gateway.CapabilityGate
