import PolyGate.Gateway.Adapters

/-!
# `Gateway/AdapterHeap.lean` — `build_provider_payload`, with the dictionaries it writes to

The payload, its messages and its options, and the defaults of the registry are dictionaries that
others hold too. Here a dictionary is a place in a heap, `dict(x)` and `deepcopy` take a new place,
and an assignment writes to one. Only new places are written to, and what is returned is what
`Gateway/Adapters.lean` says (`buildProviderPayloadIn_run`).
-/

namespace PolyGate.Gateway.AdapterHeap

open Lib

/-! ## The heap -/

/-- A value of a body: JSON that nobody writes to, a dictionary or a list of dictionaries. -/
inductive Val
  | json (v : Json)
  | dict (ref : Nat)
  | dicts (refs : List Nat)

abbrev Cell := List (PyStr × Val)

/-- Messages and options, and the bodies that hold them. -/
structure Heap where
  dicts : List Obj
  cells : List Cell

namespace Heap

variable (h : Heap)

def dict (ref : Nat) : Obj := h.dicts.getD ref []

def cell (ref : Nat) : Cell := h.cells.getD ref []

def resolve : Val → Json
  | .json v => v
  | .dict ref => .obj (h.dict ref)
  | .dicts refs => .arr (refs.map fun ref => .obj (h.dict ref))

def contents (c : Cell) : Obj := c.map fun kv => (kv.1, h.resolve kv.2)

end Heap

namespace Cell

def get? (c : Cell) (key : String) : Option Val := c.lookup (str key)

def set (c : Cell) (key : PyStr) (v : Val) : Cell :=
  if c.any (·.1 = key) then c.map fun kv => if kv.1 = key then (key, v) else kv
  else c ++ [(key, v)]

def update (c items : Cell) : Cell := items.foldl (fun c kv => set c kv.1 kv.2) c

def pop (c : Cell) (key : String) : Cell := c.filter fun kv => kv.1 ≠ str key

end Cell

/-! ## Programs over the heap -/

abbrev HeapM := ExceptT AdapterExc (StateM Heap)

def run {α : Type} (m : HeapM α) (h : Heap) : Except AdapterExc α × Heap := m.run.run h

def raise {α : Type} (o : Except AdapterExc α) : HeapM α := ExceptT.mk (pure o)

def readHeap : HeapM Heap := ExceptT.mk fun h => (.ok h, h)

def newDict (d : Obj) : HeapM Nat :=
  ExceptT.mk fun h => (.ok h.dicts.length, { h with dicts := h.dicts ++ [d] })

def writeDict (ref : Nat) (f : Obj → Obj) : HeapM Unit :=
  ExceptT.mk fun h => (.ok (), { h with dicts := h.dicts.modify ref f })

def newCell (c : Cell) : HeapM Nat :=
  ExceptT.mk fun h => (.ok h.cells.length, { h with cells := h.cells ++ [c] })

def writeCell (ref : Nat) (f : Cell → Cell) : HeapM Unit :=
  ExceptT.mk fun h => (.ok (), { h with cells := h.cells.modify ref f })

/-- `dict(x)` -/
def copyDict (v : Val) : HeapM Nat := do
  let d ← raise (((← readHeap).resolve v).toDict.mapError .shape)
  newDict d

/-- `list(x)`: a list of its own, of the same dictionaries. -/
def listOf : Val → HeapM (List Val)
  | .dicts refs => return refs.map .dict
  | v => do
    let elems ← raise (((← readHeap).resolve v).toList.mapError .shape)
    return elems.map .json

/-! ## The adapter -/

/-- The system's role for a developer message. -/
def adaptRoleIn (acceptsDeveloper : Bool) (message : Nat) : HeapM Unit := do
  let h ← readHeap
  if fieldIs "developer" (Obj.get? (h.dict message) "role") && !acceptsDeveloper then
    writeDict message fun d => setItem d (str "role") (.str (str "system"))
  else pure ()

/-- The text of the blocks for their list. -/
def flattenIn (name : String) (message : Nat) (content : List Json) : HeapM Unit := do
  let types ← raise ((unsupported content).mapError .shape)
  if types.isEmpty then do
    let text ← raise ((messageText (.arr content)).mapError .shape)
    writeDict message fun d => setItem d (str "content") (.str text)
  else raise (.error (.payloadError (.contentBlocks name types)))

def adaptContentIn (name : String) (acceptsBlocks : Bool) (message : Nat) : HeapM Unit := do
  let h ← readHeap
  match Obj.get? (h.dict message) "content" with
  | some (.arr content) => if acceptsBlocks then pure () else flattenIn name message content
  | _ => pure ()

/-- The body of the loop of `_normalize_messages`. -/
def normalizeSourceIn (name : String) (acceptsBlocks acceptsDeveloper : Bool) (source : Val) :
    HeapM Nat := do
  let message ← copyDict source
  adaptRoleIn acceptsDeveloper message
  adaptContentIn name acceptsBlocks message
  return message

/-- `_normalize_messages` -/
def normalizeMessagesIn (e : Entry) (messages : List Val) : HeapM (List Nat) := do
  let acceptsBlocks ← raise ((e.isCapable "content_blocks").mapError .shape)
  let acceptsDeveloper ← raise ((e.isCapable "developer_role").mapError .shape)
  messages.mapM (normalizeSourceIn e.name acceptsBlocks acceptsDeveloper)

/-- `store` is dropped from the body, or cannot be honoured. -/
def honorStoreIn (e : Entry) (body : Nat) : HeapM Unit := do
  let h ← readHeap
  match Obj.get? (h.contents (h.cell body)) "store" with
  | none => pure ()
  | some store => do
    let capable ← raise ((e.isCapable "store").mapError .shape)
    if capable then pure ()
    else if store.isTrue then raise (.error (.payloadError (.cannotHonorStore e.name)))
    else writeCell body fun c => c.pop "store"

/-- New options, with the usage. -/
def requestUsageIn (body : Nat) : HeapM Unit := do
  let h ← readHeap
  if (Obj.get? (h.contents (h.cell body)) "stream").any (·.truthy) then do
    let options ← copyDict (.json (orEmpty (Obj.get? (h.contents (h.cell body)) "stream_options")))
    writeDict options fun d => setItem d (str "include_usage") (.bool true)
    writeCell body fun c => c.set (str "stream_options") (.dict options)
  else pure ()

/-- A copy of the defaults, with the payload over it and the entry's own model. -/
def baseBodyIn (e : Entry) (defaults payload : Nat) : HeapM Nat := do
  let h ← readHeap
  let body ← newCell ((h.contents (h.cell defaults)).map fun kv => (kv.1, .json kv.2))
  writeCell body fun c => c.update (h.cell payload)
  writeCell body fun c => c.pop "polygate"
  writeCell body fun c =>
    c.set (str "model") (.json ((e.get? "model").getD (.str (str "default"))))
  return body

/-- Messages, `store` and the options of a stream. -/
def adaptBodyIn (e : Entry) (body : Nat) : HeapM Unit := do
  let h ← readHeap
  let sources ← listOf (((h.cell body).get? "messages").getD (.dicts []))
  let messages ← normalizeMessagesIn e sources
  writeCell body fun c => c.set (str "messages") (.dicts messages)
  honorStoreIn e body
  requestUsageIn body

/-- `build_provider_payload`, from where the defaults and the payload are. -/
def buildProviderPayloadIn (e : Entry) (defaults payload : Nat) : HeapM Nat := do
  let _ ← raise e.requestDefaults
  let body ← baseBodyIn e defaults payload
  adaptBodyIn e body
  return body

/-! ## What a step does -/

section Steps
variable {α β : Type} {m : HeapM α} {h h' : Heap}

theorem run_bind (m : HeapM α) (f : α → HeapM β) (h : Heap) :
    run (m >>= f) h = match run m h with
      | (.ok a, h') => run (f a) h'
      | (.error e, h') => (.error e, h') := by
  unfold run
  rw [ExceptT.run_bind, StateT.run_bind]
  rcases hm : m.run.run h with ⟨o, h'⟩
  cases o with
  | ok a => rfl
  | error e => rfl

theorem run_bind_ok {f : α → HeapM β} {a : α} (hm : run m h = (.ok a, h')) :
    run (m >>= f) h = run (f a) h' := by rw [run_bind, hm]

theorem run_bind_error {f : α → HeapM β} {e : AdapterExc} (hm : run m h = (.error e, h')) :
    run (m >>= f) h = (.error e, h') := by rw [run_bind, hm]

theorem run_raise (o : Except AdapterExc α) (h : Heap) : run (raise o) h = (o, h) := rfl

theorem run_readHeap (h : Heap) : run readHeap h = (.ok h, h) := rfl

/-- Writing to what was allocated last. -/
theorem modify_last {γ : Type} (l : List γ) (x : γ) (f : γ → γ) :
    (l ++ [x]).modify l.length f = l ++ [f x] := by
  induction l with
  | nil => rfl
  | cons y l ih => exact congrArg (y :: ·) ih

variable {dicts : List Obj} {cells : List Cell} {d : Obj} {c : Cell}

theorem run_writeDict_last (f : Obj → Obj) : run (writeDict dicts.length f)
    ⟨dicts ++ [d], cells⟩ = (.ok (), ⟨dicts ++ [f d], cells⟩) := by
  show (_, Heap.mk _ _) = _
  rw [modify_last]

theorem run_writeCell_last (f : Cell → Cell) : run (writeCell cells.length f)
    ⟨dicts, cells ++ [c]⟩ = (.ok (), ⟨dicts, cells ++ [f c]⟩) := by
  show (_, Heap.mk _ _) = _
  rw [modify_last]

theorem dict_last : (Heap.mk (dicts ++ [d]) cells).dict dicts.length = d := by
  simp [Heap.dict]

theorem cell_last : (Heap.mk dicts (cells ++ [c])).cell cells.length = c := by
  simp [Heap.cell]

end Steps

/-! ## What does not change -/

section Resolving
variable {h : Heap} {v : Val} {n : Nat}

/-- The value refers to the first dictionaries only. -/
def Within (n : Nat) : Val → Prop
  | .json _ => True
  | .dict ref => ref < n
  | .dicts refs => ∀ ref ∈ refs, ref < n

theorem dict_append {ref : Nat} (hlt : ref < h.dicts.length) (ds : List Obj) (cs : List Cell) :
    (Heap.mk (h.dicts ++ ds) cs).dict ref = h.dict ref := by
  unfold Heap.dict
  simp [List.getElem?_append_left hlt]

/-- A value from before does not see what is allocated. -/
theorem resolve_append (hv : Within h.dicts.length v) (ds : List Obj) (cs : List Cell) :
    (Heap.mk (h.dicts ++ ds) cs).resolve v = h.resolve v := by
  cases v with
  | json v => rfl
  | dict ref => exact congrArg Json.obj (dict_append hv ds cs)
  | dicts refs =>
    refine congrArg Json.arr (List.map_congr_left fun ref href => ?_)
    exact congrArg Json.obj (dict_append (hv ref href) ds cs)

/-- Nor does the content of a dictionary from before. -/
theorem contents_append {c : Cell} (hc : ∀ kv ∈ c, Within h.dicts.length kv.2) (ds : List Obj)
    (cs : List Cell) : (Heap.mk (h.dicts ++ ds) cs).contents c = h.contents c :=
  List.map_congr_left fun kv hkv => by rw [resolve_append (hc kv hkv)]

variable (h)

theorem get?_contents (c : Cell) (key : String) :
    Obj.get? (h.contents c) key = (c.get? key).map h.resolve := by
  unfold Obj.get? Cell.get? Heap.contents
  induction c with
  | nil => rfl
  | cons kv c ih =>
    rw [List.map_cons, List.lookup_cons, List.lookup_cons, ih]
    split <;> rfl

/-- `d[k] = v` on the heap is `setItem` on the contents. -/
theorem contents_set (c : Cell) (k : PyStr) (v : Val) :
    h.contents (c.set k v) = setItem (h.contents c) k (h.resolve v) := by
  have hany : (h.contents c).any (·.1 = k) = c.any (·.1 = k) := List.any_map
  unfold Cell.set setItem
  rw [hany]
  unfold Heap.contents
  split
  · rw [List.map_map, List.map_map]
    refine List.map_congr_left fun kv _ => ?_
    by_cases hk : kv.1 = k
    · simp [hk]
    · simp [hk]
  · rw [List.map_append]
    rfl

/-- `d.update(items)` likewise. -/
theorem contents_update (c items : Cell) :
    h.contents (c.update items) = Obj.update (h.contents c) (h.contents items) := by
  unfold Cell.update Obj.update
  induction items generalizing c with
  | nil => rfl
  | cons kv items ih =>
    rw [List.foldl_cons, ih, contents_set]
    rfl

theorem contents_pop (c : Cell) (key : String) :
    h.contents (c.pop key) = Obj.pop (h.contents c) key := by
  unfold Cell.pop Obj.pop Heap.contents
  rw [List.filter_map]
  rfl

theorem contents_json (d : Obj) : h.contents (d.map fun kv => (kv.1, .json kv.2)) = d := by
  unfold Heap.contents
  rw [List.map_map]
  exact List.map_id d

end Resolving

/-! ## Messages -/

section Messages
variable {name : String} {acceptsBlocks acceptsDeveloper : Bool} {dicts : List Obj}
  {cells : List Cell}

/-- `dict(v)` allocates, and writes nowhere else. -/
theorem run_copyDict (v : Val) (h : Heap) : run (copyDict v) h =
    match (h.resolve v).toDict with
    | .ok d => (.ok h.dicts.length, { h with dicts := h.dicts ++ [d] })
    | .error e => (.error (.shape e), h) := by
  unfold copyDict
  rw [run_bind_ok (run_readHeap h), run_bind, run_raise]
  cases (h.resolve v).toDict <;> rfl

theorem run_adaptRoleIn (d : Obj) : run (adaptRoleIn acceptsDeveloper dicts.length)
    ⟨dicts ++ [d], cells⟩ = (.ok (), ⟨dicts ++ [adaptRole acceptsDeveloper d], cells⟩) := by
  unfold adaptRoleIn adaptRole
  rw [run_bind_ok (run_readHeap _), dict_last]
  split
  · exact run_writeDict_last _
  · rfl

/-- What `normalizeSource` does to a message whose role is adapted. -/
def adaptContent (name : String) (acceptsBlocks : Bool) (message : Obj) :
    Except AdapterExc Obj :=
  match Obj.get? message "content" with
  | some (.arr content) =>
    if acceptsBlocks then return message
    else do
      let types ← (unsupported content).mapError .shape
      if types.isEmpty then
        let text ← (messageText (.arr content)).mapError .shape
        return setItem message (str "content") (.str text)
      else throw (.payloadError (.contentBlocks name types))
  | _ => return message

/-- On the copy, the content is adapted as on a value. -/
theorem run_adaptContentIn (d : Obj) : ∃ d', run (adaptContentIn name acceptsBlocks dicts.length)
      ⟨dicts ++ [d], cells⟩ =
        ((adaptContent name acceptsBlocks d).map fun _ => (), ⟨dicts ++ [d'], cells⟩) ∧
    ∀ message, adaptContent name acceptsBlocks d = .ok message → d' = message := by
  unfold adaptContentIn adaptContent
  rw [run_bind_ok (run_readHeap _), dict_last]
  split
  · next content hcontent =>
    cases acceptsBlocks with
    | true => exact ⟨d, rfl, fun message hok => Except.ok.inj hok⟩
    | false =>
      rw [if_neg Bool.false_ne_true, if_neg Bool.false_ne_true]
      unfold flattenIn
      cases htypes : unsupported content with
      | error err => exact ⟨d, rfl, fun message hok => by cases hok⟩
      | ok types =>
        cases types with
        | cons type types => exact ⟨d, rfl, fun message hok => by cases hok⟩
        | nil =>
          cases htext : messageText (.arr content) with
          | error err => exact ⟨d, rfl, fun message hok => by cases hok⟩
          | ok text =>
            refine ⟨setItem d (str "content") (.str text), ?_, fun message hok => ?_⟩
            · exact run_writeDict_last _
            · exact Except.ok.inj hok
  · exact ⟨d, rfl, fun message hok => Except.ok.inj hok⟩

theorem normalizeSource_eq (source : Json) :
    normalizeSource name acceptsBlocks acceptsDeveloper source = (do
      let message ← source.toDict.mapError AdapterExc.shape
      adaptContent name acceptsBlocks (adaptRole acceptsDeveloper message)) := rfl

/-- **One message**: a new dictionary with what is sent of it. -/
theorem run_normalizeSourceIn (h : Heap) (v : Val) : ∃ ds,
    run (normalizeSourceIn name acceptsBlocks acceptsDeveloper v) h =
      ((normalizeSource name acceptsBlocks acceptsDeveloper (h.resolve v)).map
        fun _ => h.dicts.length, ⟨h.dicts ++ ds, h.cells⟩) ∧
    ∀ message, normalizeSource name acceptsBlocks acceptsDeveloper (h.resolve v) = .ok message →
      ds = [message] := by
  obtain ⟨dicts, cells⟩ := h
  unfold normalizeSourceIn
  rw [normalizeSource_eq]
  cases hdict : ((Heap.mk dicts cells).resolve v).toDict with
  | error err =>
    have hcopy : run (copyDict v) ⟨dicts, cells⟩ = (.error (.shape err), ⟨dicts, cells⟩) := by
      rw [run_copyDict, hdict]
    rw [run_bind_error hcopy]
    refine ⟨[], ?_, fun message hok => by cases hok⟩
    rw [List.append_nil]
    rfl
  | ok d =>
    have hcopy : run (copyDict v) ⟨dicts, cells⟩ = (.ok dicts.length, ⟨dicts ++ [d], cells⟩) := by
      rw [run_copyDict, hdict]
    obtain ⟨d', hcontent, hok⟩ := @run_adaptContentIn name acceptsBlocks dicts cells
      (adaptRole acceptsDeveloper d)
    rw [run_bind_ok hcopy, run_bind_ok (run_adaptRoleIn d), run_bind, hcontent]
    show ∃ ds, _ = (Except.map _ (adaptContent _ _ _), _) ∧ ∀ message,
      adaptContent _ _ _ = .ok message → _
    cases hadapted : adaptContent name acceptsBlocks (adaptRole acceptsDeveloper d) with
    | error err => exact ⟨[d'], rfl, fun message h => by cases h⟩
    | ok message =>
      refine ⟨[d'], rfl, fun message' h => ?_⟩
      rw [hok message hadapted, Except.ok.inj h]

/-- **All messages**: each is a dictionary of its own. -/
theorem run_mapM_normalizeSourceIn {values : List Val} (h : Heap)
    (hvalues : ∀ v ∈ values, Within h.dicts.length v) (done : List Obj) : ∃ ds,
    run (values.mapM (normalizeSourceIn name acceptsBlocks acceptsDeveloper))
        ⟨h.dicts ++ done, h.cells⟩ =
      (((values.map h.resolve).mapM (normalizeSource name acceptsBlocks acceptsDeveloper)).map
        fun messages => List.range' (h.dicts ++ done).length messages.length,
        ⟨h.dicts ++ done ++ ds, h.cells⟩) ∧
    ∀ messages, (values.map h.resolve).mapM
      (normalizeSource name acceptsBlocks acceptsDeveloper) = .ok messages → ds = messages := by
  induction values generalizing done with
  | nil =>
    refine ⟨[], ?_, fun messages hok => Except.ok.inj hok⟩
    rw [List.append_nil]
    rfl
  | cons v values ih =>
    obtain ⟨hv, hvalues⟩ := List.forall_mem_cons.mp hvalues
    obtain ⟨ds, hrun, hds⟩ := @run_normalizeSourceIn name acceptsBlocks acceptsDeveloper
      ⟨h.dicts ++ done, h.cells⟩ v
    rw [resolve_append hv] at hrun hds
    rw [List.mapM_cons, List.map_cons, List.mapM_cons]
    cases hsource : normalizeSource name acceptsBlocks acceptsDeveloper (h.resolve v) with
    | error err =>
      rw [hsource] at hrun
      rw [run_bind_error hrun]
      exact ⟨ds, rfl, fun messages hok => by cases hok⟩
    | ok message =>
      rw [hsource] at hrun
      obtain rfl := hds message hsource
      obtain ⟨ds', hrest, hds'⟩ := ih hvalues (done ++ [message])
      rw [← List.append_assoc] at hrest
      have hlist : h.dicts ++ done ++ message :: ds' = h.dicts ++ done ++ [message] ++ ds' :=
        List.append_cons ..
      rw [run_bind_ok hrun, run_bind, hrest]
      cases hmessages : (values.map h.resolve).mapM
          (normalizeSource name acceptsBlocks acceptsDeveloper) with
      | error err =>
        refine ⟨message :: ds', ?_, fun messages hok => by cases hok⟩
        rw [hlist]
        rfl
      | ok messages =>
        refine ⟨message :: ds', ?_, fun messages' hok => ?_⟩
        · have hlength : (h.dicts ++ done ++ [message]).length = (h.dicts ++ done).length + 1 :=
            List.length_append
          rw [hlist, hlength]
          rfl
        · rw [hds' messages hmessages]
          exact Except.ok.inj hok

end Messages

/-! ## The body -/

section Bodies
variable {e : Entry} {h : Heap} {dicts : List Obj} {cells : List Cell} {c : Cell}

/-- A list of values, for the list that a value is. -/
theorem run_listOf {v : Val} (hv : Within h.dicts.length v) : ∃ o,
    run (listOf v) h = (o, h) ∧
    o.map (List.map h.resolve) = (h.resolve v).toList.mapError AdapterExc.shape ∧
    ∀ values, o = .ok values → ∀ v ∈ values, Within h.dicts.length v := by
  have hjson (w : Val) (hw : listOf w = do
        let elems ← raise (((← readHeap).resolve w).toList.mapError .shape)
        return elems.map .json) : ∃ o, run (listOf w) h = (o, h) ∧
      o.map (List.map h.resolve) = (h.resolve w).toList.mapError AdapterExc.shape ∧
      ∀ values, o = .ok values → ∀ v ∈ values, Within h.dicts.length v := by
    rw [hw, run_bind_ok (run_readHeap h)]
    cases (h.resolve w).toList with
    | error err => exact ⟨.error (.shape err), rfl, rfl, fun values hok => by cases hok⟩
    | ok elems =>
      refine ⟨.ok (elems.map .json), rfl, congrArg Except.ok ?_, fun values hok v hmem => ?_⟩
      · rw [List.map_map]
        exact List.map_id elems
      · rw [← Except.ok.inj hok] at hmem
        obtain ⟨elem, -, rfl⟩ := List.mem_map.mp hmem
        trivial
  cases v with
  | json v => exact hjson _ rfl
  | dict ref => exact hjson _ rfl
  | dicts refs =>
    refine ⟨.ok (refs.map .dict), rfl, congrArg Except.ok ?_, fun values hok v hmem => ?_⟩
    · rw [List.map_map]
      rfl
    · rw [← Except.ok.inj hok] at hmem
      obtain ⟨ref, href, rfl⟩ := List.mem_map.mp hmem
      exact hv ref href

/-- All messages: each is a copy of its own, so none of the old dictionaries changes. -/
theorem run_normalizeMessagesIn {values : List Val}
    (hvalues : ∀ v ∈ values, Within h.dicts.length v) : ∃ ds,
    run (normalizeMessagesIn e values) h =
      ((e.normalizeMessages (values.map h.resolve)).map
        fun messages => List.range' h.dicts.length messages.length,
        ⟨h.dicts ++ ds, h.cells⟩) ∧
    ∀ messages, e.normalizeMessages (values.map h.resolve) = .ok messages → ds = messages := by
  unfold normalizeMessagesIn Entry.normalizeMessages
  have hnone : Heap.mk (h.dicts ++ []) h.cells = h := by rw [List.append_nil]
  cases hblocks : e.isCapable "content_blocks" with
  | error err =>
    refine ⟨[], ?_, fun messages hok => by cases hok⟩
    rw [hnone]
    rfl
  | ok acceptsBlocks =>
    cases hdeveloper : e.isCapable "developer_role" with
    | error err =>
      refine ⟨[], ?_, fun messages hok => by cases hok⟩
      rw [hnone]
      rfl
    | ok acceptsDeveloper =>
      have hrun := @run_mapM_normalizeSourceIn e.name acceptsBlocks acceptsDeveloper _ h hvalues []
      rw [hnone, List.append_nil] at hrun
      exact hrun

/-- The body after `store`. -/
theorem run_honorStoreIn : ∃ c', run (honorStoreIn e cells.length) ⟨dicts, cells ++ [c]⟩ =
      ((e.honorStore ((Heap.mk dicts cells).contents c)).map fun _ => (),
        ⟨dicts, cells ++ [c']⟩) ∧ c' ⊆ c ∧
    ∀ body, e.honorStore ((Heap.mk dicts cells).contents c) = .ok body →
      (Heap.mk dicts cells).contents c' = body := by
  unfold honorStoreIn Entry.honorStore
  rw [run_bind_ok (run_readHeap _), cell_last]
  change ∃ c', run (match Obj.get? ((Heap.mk dicts cells).contents c) "store" with
    | none => _
    | some store => _) _ = _ ∧ _
  have hkept : ∀ body : Obj, (Except.ok ((Heap.mk dicts cells).contents c) :
      Except AdapterExc Obj) = .ok body → (Heap.mk dicts cells).contents c = body :=
    fun body hok => Except.ok.inj hok
  cases Obj.get? ((Heap.mk dicts cells).contents c) "store" with
  | none => exact ⟨c, rfl, List.Subset.refl c, hkept⟩
  | some store =>
    dsimp only
    cases e.isCapable "store" with
    | error err => exact ⟨c, rfl, List.Subset.refl c, fun body hok => by cases hok⟩
    | ok capable =>
      cases capable with
      | true => exact ⟨c, rfl, List.Subset.refl c, hkept⟩
      | false =>
        cases store.isTrue with
        | true => exact ⟨c, rfl, List.Subset.refl c, fun body hok => by cases hok⟩
        | false =>
          refine ⟨c.pop "store", ?_, List.filter_subset_self c, fun body hok => ?_⟩
          · exact run_writeCell_last _
          · rw [contents_pop]
            exact Except.ok.inj hok

/-- The body after the options of a stream. -/
theorem run_requestUsageIn (hc : ∀ kv ∈ c, Within dicts.length kv.2) : ∃ ds c',
    run (requestUsageIn cells.length) ⟨dicts, cells ++ [c]⟩ =
      ((Entry.requestUsage ((Heap.mk dicts cells).contents c)).map fun _ => (),
        ⟨dicts ++ ds, cells ++ [c']⟩) ∧
    ∀ body, Entry.requestUsage ((Heap.mk dicts cells).contents c) = .ok body →
      (Heap.mk (dicts ++ ds) cells).contents c' = body := by
  unfold requestUsageIn Entry.requestUsage
  rw [run_bind_ok (run_readHeap _), cell_last]
  change ∃ ds c', run
    (if (Obj.get? ((Heap.mk dicts cells).contents c) "stream").any (·.truthy) = true
    then _ else _) _ = _ ∧ _
  split
  · have hcopy := run_copyDict
      (.json (orEmpty (Obj.get? ((Heap.mk dicts cells).contents c) "stream_options")))
      ⟨dicts, cells ++ [c]⟩
    change run _ _ = match
      (orEmpty (Obj.get? ((Heap.mk dicts cells).contents c) "stream_options")).toDict with
      | .ok d => _
      | .error e => _ at hcopy
    cases hdict :
      (orEmpty (Obj.get? ((Heap.mk dicts cells).contents c) "stream_options")).toDict with
    | error err =>
      rw [hdict] at hcopy
      refine ⟨[], c, ?_, fun body hok => by cases hok⟩
      rw [List.append_nil]
      exact run_bind_error hcopy
    | ok options =>
      rw [hdict] at hcopy
      refine ⟨[setItem options (str "include_usage") (.bool true)],
        c.set (str "stream_options") (.dict dicts.length), ?_, fun body hok => ?_⟩
      · refine (run_bind_ok hcopy).trans ((run_bind_ok (run_writeDict_last _)).trans ?_)
        exact run_writeCell_last _
      · have hkept := @contents_append ⟨dicts, cells⟩ c hc
          [setItem options (str "include_usage") (.bool true)] cells
        rw [contents_set, hkept]
        show setItem _ _ (Json.obj ((Heap.mk _ cells).dict dicts.length)) = body
        rw [dict_last]
        exact Except.ok.inj hok
  · refine ⟨[], c, ?_, fun body hok => ?_⟩
    · rw [List.append_nil]
      rfl
    · rw [List.append_nil]
      exact Except.ok.inj hok

/-- What is done once the body has its messages. -/
theorem run_finish (hc : ∀ kv ∈ c, Within dicts.length kv.2) : ∃ o ds c',
    run (honorStoreIn e cells.length >>= fun _ => requestUsageIn cells.length)
        ⟨dicts, cells ++ [c]⟩ = (o, ⟨dicts ++ ds, cells ++ [c']⟩) ∧
      (o.map fun _ => (Heap.mk (dicts ++ ds) cells).contents c') =
        (e.honorStore ((Heap.mk dicts cells).contents c) >>= Entry.requestUsage) := by
  obtain ⟨c', hhonor, hsub, hc'⟩ := @run_honorStoreIn e dicts cells c
  cases hstore : e.honorStore ((Heap.mk dicts cells).contents c) with
  | error err =>
    rw [hstore] at hhonor
    refine ⟨.error err, [], c', ?_, rfl⟩
    rw [List.append_nil]
    exact run_bind_error hhonor
  | ok body =>
    rw [hstore] at hhonor
    obtain ⟨ds, c'', husage, hc''⟩ :=
      @run_requestUsageIn dicts cells c' fun kv hkv => hc kv (hsub hkv)
    rw [hc' body hstore] at husage hc''
    refine ⟨_, ds, c'', (run_bind_ok hhonor).trans husage, ?_⟩
    show _ = Entry.requestUsage body
    cases hbody : Entry.requestUsage body with
    | error err => rfl
    | ok body' => exact congrArg Except.ok (hc'' body' hbody)

end Bodies

/-! ## The whole -/

section Building
variable {e : Entry} {h : Heap} {defaults payload : Nat}

/-- References stay inside the heap. -/
theorem within_set {n : Nat} {c : Cell} {k : PyStr} {v : Val} (hc : ∀ kv ∈ c, Within n kv.2)
    (hv : Within n v) : ∀ kv ∈ c.set k v, Within n kv.2 := by
  intro kv hkv
  unfold Cell.set at hkv
  split at hkv
  · obtain ⟨kv', hkv', rfl⟩ := List.mem_map.mp hkv
    by_cases hk : kv'.1 = k
    · rw [if_pos hk]
      exact hv
    · rw [if_neg hk]
      exact hc kv' hkv'
  · rcases List.mem_append.mp hkv with hkv | hkv
    · exact hc kv hkv
    · rw [List.mem_singleton.mp hkv]
      exact hv

theorem within_update {n : Nat} {c items : Cell} (hc : ∀ kv ∈ c, Within n kv.2)
    (hitems : ∀ kv ∈ items, Within n kv.2) : ∀ kv ∈ c.update items, Within n kv.2 := by
  unfold Cell.update
  induction items generalizing c with
  | nil => exact hc
  | cons kv items ih =>
    obtain ⟨hkv, hitems⟩ := List.forall_mem_cons.mp hitems
    exact ih (within_set hc hkv) hitems

theorem Within.mono {n m : Nat} {v : Val} (h : Within n v) (hle : n ≤ m) : Within m v := by
  cases v with
  | json v => trivial
  | dict ref => exact Nat.lt_of_lt_of_le h hle
  | dicts refs => exact fun ref href => Nat.lt_of_lt_of_le (h ref href) hle

/-- The body before its messages are adapted. -/
def baseCell (e : Entry) (h : Heap) (defaults payload : Nat) : Cell :=
  (Cell.pop (Cell.update ((h.contents (h.cell defaults)).map fun kv => (kv.1, .json kv.2))
    (h.cell payload)) "polygate").set (str "model")
      (.json ((e.get? "model").getD (.str (str "default"))))

/-- The body on the heap is the body of values. -/
theorem contents_baseCell : h.contents (baseCell e h defaults payload) =
    e.baseBody (h.contents (h.cell defaults)) (h.contents (h.cell payload)) := by
  unfold baseCell Entry.baseBody
  rw [contents_set, contents_pop, contents_update, contents_json]
  rfl

theorem within_baseCell (hpayload : ∀ kv ∈ h.cell payload, Within h.dicts.length kv.2) :
    ∀ kv ∈ baseCell e h defaults payload, Within h.dicts.length kv.2 := by
  refine within_set (fun kv hkv => ?_) trivial
  refine within_update (fun kv hkv => ?_) hpayload kv (List.mem_of_mem_filter hkv)
  obtain ⟨kv', -, rfl⟩ := List.mem_map.mp hkv
  trivial

/-- Building the body allocates one dictionary. -/
theorem run_baseBodyIn : run (baseBodyIn e defaults payload) h =
    (.ok h.cells.length, ⟨h.dicts, h.cells ++ [baseCell e h defaults payload]⟩) := by
  unfold baseBodyIn
  rw [run_bind_ok (run_readHeap h)]
  have hnew : run (newCell ((h.contents (h.cell defaults)).map fun kv => (kv.1, .json kv.2))) h =
      (.ok h.cells.length, ⟨h.dicts, h.cells ++
        [(h.contents (h.cell defaults)).map fun kv => (kv.1, .json kv.2)]⟩) := rfl
  rw [run_bind_ok hnew, run_bind_ok (run_writeCell_last _), run_bind_ok (run_writeCell_last _),
    run_bind_ok (run_writeCell_last _)]
  rfl

theorem resolve_range (dicts ds : List Obj) (cells : List Cell) :
    (Heap.mk (dicts ++ ds) cells).resolve (.dicts (List.range' dicts.length ds.length)) =
      .arr (ds.map .obj) := by
  refine congrArg Json.arr (List.ext_getElem (by simp) fun i hi hi' => ?_)
  rw [List.length_map] at hi'
  simp [Heap.dict, hi']

/-- The messages of a body without any are an empty list. -/
theorem resolve_messages {base : Cell} (cells : List Cell) :
    (Heap.mk h.dicts cells).resolve ((base.get? "messages").getD (.dicts [])) =
      (Obj.get? (h.contents base) "messages").getD (.arr []) := by
  rw [get?_contents]
  cases base.get? "messages" <;> rfl

theorem within_messages {n : Nat} {base : Cell} (hbase : ∀ kv ∈ base, Within n kv.2) :
    Within n ((base.get? "messages").getD (.dicts [])) := by
  cases hget : base.get? "messages" with
  | none => exact fun ref href => absurd href List.not_mem_nil
  | some v =>
    obtain ⟨before, after, heq, -⟩ := List.lookup_eq_some_iff.mp hget
    exact hbase (str "messages", v) (heq ▸ List.mem_append_right _ List.mem_cons_self)

/-- What is done to the body, from its messages on. -/
theorem run_adaptBodyIn {base : Cell} (hbase : ∀ kv ∈ base, Within h.dicts.length kv.2) :
    ∃ o ds c, run (adaptBodyIn e h.cells.length) ⟨h.dicts, h.cells ++ [base]⟩ =
        (o, ⟨h.dicts ++ ds, h.cells ++ [c]⟩) ∧
      (o.map fun _ => (Heap.mk (h.dicts ++ ds) h.cells).contents c) = (do
        let messages ← ((Obj.get? (h.contents base) "messages").getD (.arr [])).toList.mapError
          AdapterExc.shape
        let messages ← e.normalizeMessages messages
        let body ← e.honorStore (setItem (h.contents base) (str "messages")
          (.arr (messages.map .obj)))
        Entry.requestUsage body) := by
  unfold adaptBodyIn
  rw [run_bind_ok (run_readHeap _), cell_last]
  obtain ⟨values?, hlist, hvalues, hwithin⟩ :=
    @run_listOf ⟨h.dicts, h.cells ++ [base]⟩ _ (within_messages hbase)
  rw [resolve_messages] at hvalues
  rw [← hvalues]
  cases values? with
  | error err =>
    refine ⟨.error err, [], base, ?_, rfl⟩
    rw [List.append_nil]
    exact run_bind_error hlist
  | ok values =>
    obtain ⟨ds, hnormalize, hds⟩ := run_normalizeMessagesIn (e := e) (hwithin values rfl)
    rw [run_bind_ok hlist]
    show ∃ o ds c, _ ∧ _ = (e.normalizeMessages (values.map _) >>= _)
    cases hmessages : e.normalizeMessages
        (values.map (Heap.mk h.dicts (h.cells ++ [base])).resolve) with
    | error err =>
      rw [hmessages] at hnormalize
      exact ⟨.error err, ds, base, run_bind_error hnormalize, rfl⟩
    | ok messages =>
      rw [hmessages] at hnormalize
      obtain rfl := hds messages hmessages
      -- the list of messages that is written back refers to the copies only
      have hwrite := @run_writeCell_last (h.dicts ++ ds) h.cells base fun c =>
        c.set (str "messages") (.dicts (List.range' h.dicts.length ds.length))
      have hcontents : (Heap.mk (h.dicts ++ ds) h.cells).contents (base.set (str "messages")
          (.dicts (List.range' h.dicts.length ds.length))) =
            setItem (h.contents base) (str "messages") (.arr (ds.map .obj)) := by
        rw [contents_set, contents_append hbase, resolve_range]
      have hnew : Within (h.dicts ++ ds).length
          (.dicts (List.range' h.dicts.length ds.length)) := by
        intro ref href
        rw [List.mem_range'_1] at href
        rw [List.length_append]
        exact href.2
      have hset := within_set (k := str "messages") (fun kv hkv => (hbase kv hkv).mono
        (List.length_append ▸ Nat.le_add_right _ _)) hnew
      obtain ⟨o, ds', c, hrun, hbody⟩ := @run_finish e (h.dicts ++ ds) h.cells _ hset
      rw [hcontents] at hbody
      refine ⟨o, ds ++ ds', c, ?_, ?_⟩
      · rw [← List.append_assoc, ← hrun]
        exact (run_bind_ok hnormalize).trans (run_bind_ok hwrite)
      · rw [← List.append_assoc]
        exact hbody

/-- The defaults of an entry and a payload, and where they are. -/
structure Holds (h : Heap) (e : Entry) (defaults payload : Nat) (d : Obj) : Prop where
  defaults_eq : ∀ d, e.requestDefaults = .ok d → h.contents (h.cell defaults) = d
  payload_eq : h.contents (h.cell payload) = d
  within : ∀ kv ∈ h.cell payload, Within h.dicts.length kv.2

/-- **The inputs stay as they are**, and what is returned is what is said of dictionaries as
values. -/
theorem buildProviderPayloadIn_run {d : Obj} (hholds : Holds h e defaults payload d) :
    ∃ o ds cs, run (buildProviderPayloadIn e defaults payload) h =
        (o, ⟨h.dicts ++ ds, h.cells ++ cs⟩) ∧
      (o.map fun body => (Heap.mk (h.dicts ++ ds) (h.cells ++ cs)).contents
        ((Heap.mk (h.dicts ++ ds) (h.cells ++ cs)).cell body)) = e.buildProviderPayload d := by
  obtain ⟨hdefaults, rfl, hpayload⟩ := hholds
  unfold buildProviderPayloadIn Entry.buildProviderPayload
  cases hrequest : e.requestDefaults with
  | error err =>
    refine ⟨.error err, [], [], ?_, rfl⟩
    rw [List.append_nil, List.append_nil]
    rfl
  | ok d =>
    rw [run_bind_ok (run_raise _ h), run_bind_ok run_baseBodyIn]
    obtain ⟨o, ds, c, hrun, hcontents⟩ := run_adaptBodyIn (e := e)
      (@within_baseCell e h defaults payload hpayload)
    rw [contents_baseCell, hdefaults d hrequest] at hcontents
    cases o with
    | error err => exact ⟨.error err, ds, [c], run_bind_error hrun, hcontents⟩
    | ok _ =>
      refine ⟨.ok h.cells.length, ds, [c], run_bind_ok hrun, Eq.trans ?_ hcontents⟩
      show Except.ok ((Heap.mk _ _).contents ((Heap.mk _ (h.cells ++ [c])).cell _)) = _
      rw [cell_last]
      rfl

end Building

end PolyGate.Gateway.AdapterHeap
