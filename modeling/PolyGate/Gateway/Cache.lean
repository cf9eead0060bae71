import PolyGate.Gateway.Failover
import PolyGate.Lib.PyStr

/-!
# `Gateway/Cache.lean` — the key of the exact cache

`gateway/app/cache.py`, and how `chat_completions` calls it. The key is a hash of one text, the
normalized messages as JSON and six fields, joined by `|`. The JSON text and the scope may hold
a `|` themselves. Still the text says what it was made of (`payload_inj`): the last four
fields hold none, so it is taken apart from the right; the JSON says where it ends, and the
privacy after it holds none.
-/

namespace PolyGate.Gateway

open Lib

/-- What computing a key raises. -/
inductive KeyExc | keyError | attributeError | unicodeEncodeError
  deriving DecidableEq, Repr

/-- `m["role"]`, `m["content"].strip()` -/
def normalizeMessage (m : Obj) : Except KeyExc Obj :=
  match Obj.get? m "role", Obj.get? m "content" with
  | some role, some (.str content) =>
    .ok [(str "role", role), (str "content", .str (strip content))]
  | some _, some _ => .error .attributeError
  | _, _ => .error .keyError

def normalize (messages : List Obj) : Except KeyExc (List Obj) := messages.mapM normalizeMessage

/-- `"|" + field + …` -/
def joined (fields : List PyStr) : PyStr := fields.flatMap fun f => codePoint '|' :: f

/-- The text that is hashed. -/
def cachePayload (messages : List Obj) (privacy scope quality : String) (maxCostUsd : PyFloat)
    (latencyTargetMs : Int) (policyVersion : Nat) : PyStr :=
  dumps (.arr (messages.map .obj)) ++ joined [str privacy, str scope, str quality,
    maxCostUsd.repr.map codePoint, (intStr latencyTargetMs).map codePoint,
    (intStr policyVersion).map codePoint]

/-- `cache_key`; `hexdigest` is that of SHA-256. -/
def cacheKey (hexdigest : ByteArray → String) (messages : List Obj) (privacy scope quality : String)
    (maxCostUsd : PyFloat) (latencyTargetMs : Int) (policyVersion : Nat) :
    Except KeyExc String := do
  let normalized ← normalize messages
  match encodeUtf8 (cachePayload normalized privacy scope quality maxCostUsd latencyTargetMs
      policyVersion) with
  | some bytes => return "pg:" ++ hexdigest bytes
  | none => throw .unicodeEncodeError

/-- `forced["name"] if forced else "auto"` -/
def cacheScope : Option Provider → String
  | some forced => forced.name
  | none => "auto"

/-- The key `chat_completions` looks up; `none` is a bypass. -/
def requestKey (hexdigest : ByteArray → String) (req : GatewayRequest) (forced : Option Provider)
    (policyVersion : Nat) : Except KeyExc (Option String) :=
  if req.bypassCache then return none
  else some <$> cacheKey hexdigest req.messageDicts req.polygate.privacy.value (cacheScope forced)
    req.polygate.quality.value req.polygate.maxCostUsd req.polygate.latencyTargetMs policyVersion

/-! ## Requests that do not bypass the cache -/

/-- The text of a message that has one. -/
def Message.text (m : Message) : PyStr :=
  match m.content with
  | some (.text s) => s
  | _ => []

/-- The dump of a message with nothing but a role and a text. -/
def plainMessage (role : Role) (s : PyStr) : Obj :=
  [(str "role", .str (str role.value)), (str "content", .str s)]

theorem forall_of_any_eq_false {α : Type} {l : List α} {p : α → Bool} (h : l.any p = false) :
    ∀ x ∈ l, p x = false := fun x hx => by
  simpa using List.any_eq_false.mp h x hx

/-- An object with no other keys is all of itself. -/
theorem eq_filter {o : Obj} {allowed : List PyStr} (h : (o.any fun e => e.1 ∉ allowed) = false) :
    o = o.filter fun e => e.1 ∈ allowed := by
  refine (List.filter_eq_self.mpr fun e he => decide_eq_true ?_).symm
  exact not_not.mp (of_decide_eq_false (forall_of_any_eq_false h e he))

/-- What is left of a dumped field. -/
theorem filter_field {allowed : List String} {key : String} (v : Option Json) :
    (field key v).filter (fun e => e.1 ∈ allowed.map str) =
      if key ∈ allowed then field key v else [] := by
  cases v with
  | none => simp [field]
  | some v =>
    by_cases h : key ∈ allowed <;> simp [field, h]

section Plain

variable {req : GatewayRequest} (h : req.bypassCache = false)

include h

/-- What `bypass_cache` has checked. -/
theorem bypassCache_eq_false : req.stream = false ∧ req.hasGenerationOptions = false ∧
    req.hasMessageMetadata = false ∧ ∀ m ∈ req.messages, ∃ s, m.content = some (.text s) := by
  simp only [GatewayRequest.bypassCache, Bool.or_eq_false_iff] at h
  obtain ⟨⟨⟨⟨⟨⟨-, -⟩, hstream⟩, -⟩, hoptions⟩, hmeta⟩, htext⟩ := h
  refine ⟨hstream, hoptions, hmeta, fun m hm => ?_⟩
  have hcontent := (Bool.or_eq_false_iff.mp (forall_of_any_eq_false htext m hm)).2
  split at hcontent
  · rename_i s hs
    exact ⟨s, hs⟩
  · cases hcontent

/-- Its messages are a role and a text each. -/
theorem modelDump_plain {m : Message} (hm : m ∈ req.messages) :
    m.modelDump = plainMessage m.role m.text := by
  obtain ⟨-, -, hmeta, htext⟩ := bypassCache_eq_false h
  obtain ⟨s, hs⟩ := htext m hm
  have hextra : (m.extra.filter fun e => !e.2.isNone).filter
      (fun e => e.1 ∈ ["role", "content"].map str) = [] := by
    refine List.filter_eq_nil_iff.mpr fun e he hmem => ?_
    refine m.extra_other e (List.mem_of_mem_filter he) ?_
    have hsub : ∀ k ∈ ["role", "content"].map str, k ∈ messageFields.map str := by decide
    exact hsub _ (of_decide_eq_true hmem)
  rw [eq_filter (forall_of_any_eq_false hmeta m hm)]
  unfold Message.modelDump
  simp only [List.filter_append, filter_field, hextra, List.mem_cons, List.not_mem_nil,
    String.reduceEq, or_false, or_true, if_true, if_false, List.append_nil, Message.text, hs]
  rfl

/-- Its payload is the model, the messages and no stream. -/
theorem providerPayload_plain : req.providerPayload =
    [(str "model", .str (str req.model)),
     (str "messages", .arr (req.messageDicts.map .obj)),
     (str "stream", .bool false)] := by
  obtain ⟨hstream, hoptions, -, -⟩ := bypassCache_eq_false h
  rw [eq_filter hoptions]
  unfold GatewayRequest.providerPayload
  simp only [List.filter_append, filter_field, List.mem_cons, List.not_mem_nil,
    String.reduceEq, or_false, or_true, if_true, if_false,
    List.append_nil, hstream]
  rfl

end Plain

/-! ## What the key covers -/

/-- The roles and the stripped texts of the messages. -/
def GatewayRequest.texts (req : GatewayRequest) : List (Role × PyStr) :=
  req.messages.map fun m => (m.role, strip m.text)

/-- Such messages as dictionaries. -/
def plainMessages (texts : List (Role × PyStr)) : List Obj :=
  texts.map fun e => plainMessage e.1 e.2

theorem normalizeMessage_plain (role : Role) (s : PyStr) :
    normalizeMessage (plainMessage role s) = .ok (plainMessage role (strip s)) := by
  simp [normalizeMessage, plainMessage]

theorem normalize_plain (texts : List (Role × PyStr)) :
    normalize (plainMessages texts) =
      .ok (plainMessages (texts.map fun e => (e.1, strip e.2))) := by
  unfold normalize
  induction texts with
  | nil => rfl
  | cons e texts ih =>
    show (plainMessage e.1 e.2 :: plainMessages texts).mapM normalizeMessage = _
    rw [List.mapM_cons, normalizeMessage_plain, ih]
    rfl

theorem messageDicts_plain {req : GatewayRequest} (h : req.bypassCache = false) :
    req.messageDicts = plainMessages (req.messages.map fun m => (m.role, m.text)) := by
  unfold GatewayRequest.messageDicts plainMessages
  rw [List.map_map]
  exact List.map_congr_left fun m hm => modelDump_plain h hm

/-- Of a request that does not bypass the cache, the key covers the stripped messages. -/
theorem normalize_messageDicts {req : GatewayRequest} (h : req.bypassCache = false) :
    normalize req.messageDicts = .ok (plainMessages req.texts) := by
  rw [messageDicts_plain h, normalize_plain, List.map_map]
  rfl

/-! ## The payload says what it is made of -/

theorem Role.value_injective : Function.Injective Role.value := by
  intro r r' h
  cases r <;> cases r' <;> simp_all [Role.value]

theorem Privacy.value_injective : Function.Injective Privacy.value := by
  intro p p' h
  cases p <;> cases p' <;> simp_all [Privacy.value]

theorem Quality.value_injective : Function.Injective Quality.value := by
  intro q q' h
  cases q <;> cases q' <;> simp_all [Quality.value]

/-- A message as text. -/
theorem dumps_plainMessage (role : Role) (s : PyStr) : dumps (.obj (plainMessage role s)) =
    str "\x7b" ++ quote (str "role") ++ str ": " ++ quote (str role.value) ++
      (str ", " ++ quote (str "content") ++ str ": " ++ quote s ++ str "\x7d") := rfl

/-- A message as text says where it ends. -/
theorem dumps_plainMessage_inj {role role' : Role} {s s' r r' : PyStr}
    (h : dumps (.obj (plainMessage role s)) ++ r = dumps (.obj (plainMessage role' s')) ++ r') :
    (role, s) = (role', s') ∧ r = r' := by
  simp only [dumps_plainMessage, List.append_assoc] at h
  have hrole := List.append_cancel_left (List.append_cancel_left (List.append_cancel_left h))
  obtain ⟨hvalue, hrest⟩ := quote_inj hrole
  have hcontent := List.append_cancel_left (List.append_cancel_left (List.append_cancel_left hrest))
  obtain ⟨hs, hrest⟩ := quote_inj hcontent
  rw [Role.value_injective (str_injective hvalue), hs]
  exact ⟨rfl, List.append_cancel_left hrest⟩

/-- So do the messages after the first, by their commas and the bracket. -/
theorem dumpsElems_inj : ∀ {texts texts' : List (Role × PyStr)} {r r' : PyStr},
    dumpsElems ((plainMessages texts).map .obj) ++ r =
      dumpsElems ((plainMessages texts').map .obj) ++ r' → texts = texts' ∧ r = r' := by
  intro texts
  induction texts with
  | nil =>
    intro texts' r r' h
    cases texts' with
    | nil => exact ⟨rfl, (List.cons.inj h).2⟩
    | cons e' texts' => exact absurd (List.cons.inj h).1 (by decide)
  | cons e texts ih =>
    intro texts' r r' h
    cases texts' with
    | nil => exact absurd (List.cons.inj h).1 (by decide)
    | cons e' texts' =>
      have h' : str ", " ++ (dumps (.obj (plainMessage e.1 e.2)) ++
          (dumpsElems ((plainMessages texts).map .obj) ++ r)) =
          str ", " ++ (dumps (.obj (plainMessage e'.1 e'.2)) ++
          (dumpsElems ((plainMessages texts').map .obj) ++ r')) := by
        simpa only [plainMessages, List.map_cons, dumpsElems, List.append_assoc] using h
      obtain ⟨he, hrest⟩ := dumps_plainMessage_inj (List.append_cancel_left h')
      obtain ⟨htexts, hr⟩ := ih hrest
      exact ⟨by rw [show e = e' from he, htexts], hr⟩

/-- So does the JSON text of all of them. -/
theorem dumps_messages_inj {texts texts' : List (Role × PyStr)} {r r' : PyStr}
    (h : dumps (.arr ((plainMessages texts).map .obj)) ++ r =
      dumps (.arr ((plainMessages texts').map .obj)) ++ r') : texts = texts' ∧ r = r' := by
  cases texts with
  | nil =>
    cases texts' with
    | nil => exact ⟨rfl, List.append_cancel_left h⟩
    | cons e' texts' => exact absurd (List.cons.inj (List.cons.inj h).2).1 (by decide)
  | cons e texts =>
    cases texts' with
    | nil => exact absurd (List.cons.inj (List.cons.inj h).2).1 (by decide)
    | cons e' texts' =>
      have h' : str "[" ++ (dumps (.obj (plainMessage e.1 e.2)) ++
          (dumpsElems ((plainMessages texts).map .obj) ++ r)) =
          str "[" ++ (dumps (.obj (plainMessage e'.1 e'.2)) ++
          (dumpsElems ((plainMessages texts').map .obj) ++ r')) := by
        simpa only [plainMessages, List.map_cons, dumps, List.append_assoc] using h
      obtain ⟨he, hrest⟩ := dumps_plainMessage_inj (List.append_cancel_left h')
      obtain ⟨htexts, hr⟩ := dumpsElems_inj hrest
      exact ⟨by rw [show e = e' from he, htexts], hr⟩

/-- The fields without the last one. -/
theorem joined_concat (fields : List PyStr) (f : PyStr) :
    joined (fields ++ [f]) = joined fields ++ codePoint '|' :: f := by
  simp [joined]

/-- The last field is found again when it has no `|`. -/
theorem cut_field (fields fields' : List PyStr) {a a' f f' : PyStr} (h : codePoint '|' ∉ f)
    (h' : codePoint '|' ∉ f')
    (heq : a ++ joined (fields ++ [f]) = a' ++ joined (fields' ++ [f'])) :
    a ++ joined fields = a' ++ joined fields' ∧ f = f' := by
  rw [joined_concat, joined_concat, ← List.append_assoc, ← List.append_assoc] at heq
  exact cut_last h h' heq

theorem codePoint_notMem {c : Char} {cs : List Char} (h : c ∉ cs) :
    codePoint c ∉ cs.map codePoint := by
  rwa [List.mem_map_of_injective codePoint_injective]

theorem bar_notMem_value : (∀ p : Privacy, codePoint '|' ∉ str p.value) ∧
    ∀ q : Quality, codePoint '|' ∉ str q.value := by
  constructor
  · intro p
    cases p <;> decide
  · intro q
    cases q <;> decide

/-- **The payload determines its parts.** -/
theorem payload_inj {texts texts' : List (Role × PyStr)} {p p' : Privacy} {scope scope' : String}
    {q q' : Quality} {cost cost' : PyFloat} {latency latency' : Int} {v v' : Nat}
    (h : cachePayload (plainMessages texts) p.value scope q.value cost latency v =
      cachePayload (plainMessages texts') p'.value scope' q'.value cost' latency' v') :
    texts = texts' ∧ p = p' ∧ scope = scope' ∧ q = q' ∧ cost = cost' ∧ latency = latency' ∧
      v = v' := by
  have hint : ∀ n : Int, codePoint '|' ∉ (intStr n).map codePoint := fun n =>
    codePoint_notMem (notMem_intStr (by decide) (by decide) n)
  have hfloat : ∀ x : PyFloat, codePoint '|' ∉ x.repr.map codePoint := fun x =>
    codePoint_notMem (PyFloat.notMem_repr (by decide) (by decide) x)
  unfold cachePayload at h
  obtain ⟨h, hv⟩ := cut_field [_, _, _, _, _] [_, _, _, _, _]
    (hint v) (hint v') h
  obtain ⟨h, hlatency⟩ := cut_field [_, _, _, _] [_, _, _, _]
    (hint latency) (hint latency') h
  obtain ⟨h, hcost⟩ := cut_field [_, _, _] [_, _, _]
    (hfloat cost) (hfloat cost') h
  obtain ⟨h, hq⟩ := cut_field [_, _] [_, _]
    (bar_notMem_value.2 q) (bar_notMem_value.2 q') h
  -- the scope may hold a bar: from here the text is read from the left
  obtain ⟨htexts, h⟩ := dumps_messages_inj h
  obtain ⟨hp, hscope⟩ := cut_first (bar_notMem_value.1 p) (bar_notMem_value.1 p')
    (List.cons.inj h).2
  have hmap := List.map_injective_iff.mpr codePoint_injective
  refine ⟨htexts, Privacy.value_injective (str_injective hp), ?_,
    Quality.value_injective (str_injective hq), PyFloat.repr_injective (hmap hcost),
    intStr_injective (hmap hlatency), Int.ofNat_inj.mp (intStr_injective (hmap hv))⟩
  simpa [joined] using hscope

/-! ## What can be hashed -/

theorem dumps_plainMessage_surrogateFree {role : Role} {s : PyStr} :
    SurrogateFree (dumps (.obj (plainMessage role s))) ↔ SurrogateFree s := by
  simp [dumps_plainMessage, surrogateFree_append, quote_surrogateFree]

theorem dumpsElems_surrogateFree (texts : List (Role × PyStr)) :
    SurrogateFree (dumpsElems ((plainMessages texts).map .obj)) ↔
      ∀ e ∈ texts, SurrogateFree e.2 := by
  induction texts with
  | nil => simp [plainMessages, dumpsElems]
  | cons e texts ih =>
    unfold plainMessages at ih ⊢
    simp only [List.map_cons, dumpsElems, surrogateFree_append, ih,
      dumps_plainMessage_surrogateFree,
      surrogateFree_str, true_and, List.forall_mem_cons]

theorem dumps_messages_surrogateFree {texts : List (Role × PyStr)} :
    SurrogateFree (dumps (.arr ((plainMessages texts).map .obj))) ↔
      ∀ e ∈ texts, SurrogateFree e.2 := by
  cases texts with
  | nil => simp [plainMessages, dumps]
  | cons e texts =>
    have htail := dumpsElems_surrogateFree texts
    unfold plainMessages at htail ⊢
    simp only [List.map_cons, dumps, surrogateFree_append, htail, dumps_plainMessage_surrogateFree,
      surrogateFree_str, true_and, List.forall_mem_cons]

theorem payload_surrogateFree {texts : List (Role × PyStr)} {p scope q : String} {cost : PyFloat}
    {latency : Int} {v : Nat} :
    SurrogateFree (cachePayload (plainMessages texts) p scope q cost latency v) ↔
      ∀ e ∈ texts, SurrogateFree e.2 := by
  have hbar : (codePoint '|').val.isValidChar := by decide
  unfold cachePayload
  rw [surrogateFree_append, dumps_messages_surrogateFree, and_iff_left_iff_imp]
  intro _
  simp [joined, surrogateFree_append, surrogateFree_cons, hbar]

/-- The key of a request that does not bypass the cache. -/
theorem requestKey_eq {hexdigest : ByteArray → String} {req : GatewayRequest}
    (h : req.bypassCache = false) (forced : Option Provider) (v : Nat) :
    requestKey hexdigest req forced v =
      match encodeUtf8 (cachePayload (plainMessages req.texts) req.polygate.privacy.value
        (cacheScope forced) req.polygate.quality.value req.polygate.maxCostUsd
        req.polygate.latencyTargetMs v) with
      | some bytes => .ok (some ("pg:" ++ hexdigest bytes))
      | none => .error .unicodeEncodeError := by
  simp only [requestKey, h, cacheKey, normalize_messageDicts h]
  show some <$> (match encodeUtf8 _ with | some bytes => _ | none => _) = _
  split <;> rfl

/-- A request that has a key does not bypass the cache. -/
theorem bypassCache_of_key {hexdigest : ByteArray → String} {req : GatewayRequest}
    {forced : Option Provider} {v : Nat} {key : String}
    (h : requestKey hexdigest req forced v = .ok (some key)) : req.bypassCache = false := by
  cases hbypass : req.bypassCache with
  | false => rfl
  | true =>
    rw [requestKey, if_pos hbypass] at h
    cases h

section Inj

variable {hexdigest : ByteArray → String} (hinj : Function.Injective hexdigest)
  {req req' : GatewayRequest} {forced forced' : Option Provider} {v v' : Nat} {key : String}
  (hkey : requestKey hexdigest req forced v = .ok (some key))
  (hkey' : requestKey hexdigest req' forced' v' = .ok (some key))

include hinj hkey hkey'

/-- Two requests with one key have the same payload. -/
theorem requestKey_payload :
    cachePayload (plainMessages req.texts) req.polygate.privacy.value (cacheScope forced)
        req.polygate.quality.value req.polygate.maxCostUsd req.polygate.latencyTargetMs v =
      cachePayload (plainMessages req'.texts) req'.polygate.privacy.value (cacheScope forced')
        req'.polygate.quality.value req'.polygate.maxCostUsd req'.polygate.latencyTargetMs v' := by
  rw [requestKey_eq (bypassCache_of_key hkey)] at hkey
  rw [requestKey_eq (bypassCache_of_key hkey')] at hkey'
  split at hkey
  · rename_i bytes hbytes
    split at hkey'
    · rename_i bytes' hbytes'
      have heq := (Option.some.inj (Except.ok.inj hkey)).trans
        (Option.some.inj (Except.ok.inj hkey')).symm
      rw [hinj ((String.append_right_inj _).mp heq)] at hbytes
      exact encodeUtf8_inj hbytes hbytes'
    · cases hkey'
  · cases hkey

/-- They are handled under the same policy version. -/
theorem requestKey_version : v = v' :=
  (payload_inj (requestKey_payload hinj hkey hkey')).2.2.2.2.2.2

end Inj

end PolyGate.Gateway
