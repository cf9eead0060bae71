import PolyGate.Lib.Prog
import PolyGate.Lib.JsonText
import PolyGate.Lib.PyStr
import PolyGate.Lib.Pydantic
import PolyGate.Gateway.Decisions

/-!
# `Gateway/DecisionStore.lean` — what the decision store says about Redis

`Cache` of `gateway/app/cache.py` with its lazy reconnection, and `DecisionStore` of `decisions.py`
over it, one call at a time. The store learns whether a command worked by asking afterwards whether
the cache is enabled. After a command that failed this very question connects again, when the last
attempt is long enough ago. So the store is wrong about a call exactly when Redis comes back between
the two (`ComesBack`), and right about every other (`tells_iff`).
-/

namespace PolyGate.Gateway.DecisionStore

open Lib Pydantic

/-! ## Redis and the clock -/

/-- A `redis.RedisError`. -/
inductive RedisError | redisError
  deriving DecidableEq, Repr

/-- What Redis holds under a key. -/
inductive Raw
  | text (s : PyStr)
  /-- JSON that is nested too deeply for `json.loads` -/
  | tooDeep
  /-- bytes that are not UTF-8 -/
  | undecodable
  deriving DecidableEq

inductive Cmd
  /-- `time.monotonic()` -/
  | monotonic
  /-- `from_url` and `ping`; false if they raise -/
  | connect
  | get (key : String)
  | set (key : String) (value : PyStr) (ex : Nat)

abbrev Cmd.Reply : Cmd → Type
  | .monotonic => Time
  | .connect => Bool
  | .get _ => Except RedisError (Option Raw)
  | .set .. => Except RedisError Unit

inductive Exc | decisionStoreUnavailable | recursionError | unicodeDecodeError
  deriving DecidableEq, Repr

abbrev Call := Prog Cmd Cmd.Reply Exc

abbrev Event := Prog.Event Cmd Cmd.Reply

/-! ## The cache -/

/-- `Cache`: whether there is a client, and when one was last asked for. -/
structure Cache where
  connected : Bool
  lastAttempt : Option Time

namespace Cache

/-- `_invalidate` -/
def invalidate (c : Cache) : Cache := { c with connected := false }

variable (backoffSeconds : Time)

/-- Still in the backoff window. -/
def backsOff (c : Cache) (now : Time) : Bool :=
  match c.lastAttempt with
  | some last => now - last < backoffSeconds
  | none => false

/-- `_get_client`, the clock being read again under the lock. -/
def getClient (c : Cache) : Call (Bool × Cache) :=
  if c.connected then return (true, c) else do
  let now ← Prog.perform .monotonic
  if c.backsOff backoffSeconds now then return (false, c) else do
  let now ← Prog.perform .monotonic
  if c.backsOff backoffSeconds now then return (false, c) else do
  let connected ← Prog.perform .connect
  return (connected, ⟨connected, some now⟩)

def enabled (c : Cache) : Call (Bool × Cache) := c.getClient backoffSeconds

/-- `json.loads` of what a GET has brought; `None` is `null`, also for what cannot be parsed. -/
def parsed : Option Raw → Except Exc Json
  | none | some (.text []) => .ok .null
  | some (.text s) => match loads s with
    | .ok v => .ok v
    | .error _ => .ok .null
  | some .tooDeep => .error .recursionError
  | some .undecodable => .error .unicodeDecodeError

def get (c : Cache) (key : String) : Call (Json × Cache) := do
  let (client, c) ← c.getClient backoffSeconds
  if !client then return (.null, c) else do
  let reply : Except RedisError (Option Raw) ← Prog.perform (Cmd.get key)
  match reply with
  | .error _ => return (.null, c.invalidate)
  | .ok raw => match parsed raw with
    | .ok v => return (v, c)
    | .error e => throw e

def set (c : Cache) (key : String) (value : Json) (ttl : Nat) : Call Cache := do
  let (client, c) ← c.getClient backoffSeconds
  if !client then return c else do
  let reply : Except RedisError Unit ← Prog.perform (Cmd.set key (dumps value) ttl)
  match reply with
  | .error _ => return c.invalidate
  | .ok () => return c

end Cache

/-! ## Records -/

/-- `REQUEST_ID_PATTERN` -/
def isRequestId (s : String) : Bool :=
  s.length = 36 && s.toList.take 4 = "req_".toList &&
    (s.toList.drop 4).all fun c => c.isDigit || ('a' ≤ c && c ≤ 'f')

/-- `str` with `min_length=1` -/
abbrev NonemptyText := {s : String // s ≠ ""}

/-- The validated fields of a `DecisionRecord`; a reason is text here. -/
structure StoredRecord where
  requestId : {s : String // isRequestId s}
  outcome : DecisionOutcome
  chosenProvider : NonemptyText
  initialProvider : NonemptyText
  reason : NonemptyText
  cacheHit : Bool
  stream : Bool
  costEstimateUsd : {x : PyFloat // x.below 0 = false}
  latencyMs : Nat
  tokens : Tokens
  retries : Nat
  failoverFrom : Option String
  failoverCount : Nat
  createdAt : Time
  expiresAt : Time
  /-- `validate_failover_fields` -/
  failover : failoverFrom.isSome ↔ 0 < failoverCount
  lasts : createdAt < expiresAt

/-- What pydantic does with numbers in texts and with times. -/
structure Conversions where
  coercions : Coercions
  writeTime : Time → PyStr
  /-- a `datetime` with a time zone -/
  readTime : Validator Time

/-- A validator of a subtype. -/
def checked {α : Type} (validate : Validator α) (p : α → Prop) [DecidablePred p] :
    Validator {a : α // p a} :=
  fun v => (validate v).bind fun a => if h : p a then some ⟨a, h⟩ else none

def natural (c : Coercions) : Validator Nat := fun v => (intFrom (laxInt c) 0 v).map (·.1)

def readTokens (c : Coercions) : Validator Tokens
  | .obj o => do
    let input ← required o "input" (natural c)
    let output ← required o "output" (natural c)
    return ⟨input, output⟩
  | _ => none

def outcomeChoices : List (String × DecisionOutcome) :=
  [("success", .success), ("cache_hit", .cacheHit), ("cancelled", .cancelled),
    ("partial_error", .partialError)]

def recordFields : List String :=
  ["schema_version", "request_id", "outcome", "chosen_provider", "initial_provider", "reason",
    "cache_hit", "stream", "cost_estimate_usd", "latency_ms", "tokens", "retries", "failover_from",
    "failover_count", "created_at", "expires_at"]

/-- `DecisionRecord.model_validate` -/
def readRecord (conv : Conversions) : Validator StoredRecord := fun v => do
  let o ← model recordFields v
  defaulted o "schema_version" () (literalInt 1)
  let requestId ← required o "request_id" (checked text fun s => isRequestId s)
  let outcome ← required o "outcome" (literal outcomeChoices)
  let chosenProvider ← required o "chosen_provider" (checked text fun s => s ≠ "")
  let initialProvider ← required o "initial_provider" (checked text fun s => s ≠ "")
  let reason ← required o "reason" (checked text fun s => s ≠ "")
  let cacheHit ← required o "cache_hit" laxBool
  let stream ← required o "stream" laxBool
  let costEstimateUsd ← required o "cost_estimate_usd" (floatFrom (laxFloat conv.coercions) 0)
  let latencyMs ← required o "latency_ms" (natural conv.coercions)
  let tokens ← required o "tokens" (readTokens conv.coercions)
  let retries ← defaulted o "retries" 0 (natural conv.coercions)
  let failoverFrom ← defaulted o "failover_from" none (nullable text)
  let failoverCount ← defaulted o "failover_count" 0 (natural conv.coercions)
  let createdAt ← required o "created_at" conv.readTime
  let expiresAt ← required o "expires_at" conv.readTime
  if h : (failoverFrom.isSome ↔ 0 < failoverCount) ∧ createdAt < expiresAt then
    some ⟨requestId, outcome, chosenProvider, initialProvider, reason, cacheHit, stream,
      costEstimateUsd, latencyMs, tokens, retries, failoverFrom, failoverCount, createdAt,
      expiresAt, h.1, h.2⟩
  else none

def outcomeValue : DecisionOutcome → String
  | .success => "success"
  | .cacheHit => "cache_hit"
  | .cancelled => "cancelled"
  | .partialError => "partial_error"

/-- `record.model_dump(mode="json")` -/
def StoredRecord.modelDump (conv : Conversions) (r : StoredRecord) : Json := .obj
  [(str "schema_version", .int 1),
   (str "request_id", .str (str r.requestId)),
   (str "outcome", .str (str (outcomeValue r.outcome))),
   (str "chosen_provider", .str (str r.chosenProvider)),
   (str "initial_provider", .str (str r.initialProvider)),
   (str "reason", .str (str r.reason)),
   (str "cache_hit", .bool r.cacheHit),
   (str "stream", .bool r.stream),
   (str "cost_estimate_usd", .float r.costEstimateUsd),
   (str "latency_ms", .int r.latencyMs),
   (str "tokens", .obj [(str "input", .int r.tokens.input), (str "output", .int r.tokens.output)]),
   (str "retries", .int r.retries),
   (str "failover_from", (r.failoverFrom.map fun s => Json.str (str s)).getD .null),
   (str "failover_count", .int r.failoverCount),
   (str "created_at", .str (conv.writeTime r.createdAt)),
   (str "expires_at", .str (conv.writeTime r.expiresAt))]

/-! ## The store -/

/-- `DecisionStore`, with the window in which the cache does not connect again. -/
structure Store where
  ttlSeconds : TtlSeconds
  backoffSeconds : Time
  conv : Conversions

/-- `DecisionStore.key` -/
def key (requestId : String) : String := "pg:decision:" ++ requestId

namespace Store

variable (st : Store)

/-- The command that writes a record. -/
def write (record : StoredRecord) : Cmd :=
  .set (key record.requestId) (dumps (record.modelDump st.conv)) st.ttlSeconds.seconds

def save (record : StoredRecord) (c : Cache) : Call (Bool × Cache) := do
  let (enabled, c) ← c.enabled st.backoffSeconds
  if !enabled then return (false, c) else do
  let c ← c.set st.backoffSeconds (key record.requestId) (record.modelDump st.conv)
    st.ttlSeconds.seconds
  c.enabled st.backoffSeconds

/-- `get` from the value on; one that does not validate is only logged. -/
def answer (raw : Json) (c : Cache) : Call (Option StoredRecord × Cache) :=
  if raw.isNone then do
    let (enabled, c) ← c.enabled st.backoffSeconds
    if !enabled then throw .decisionStoreUnavailable else return (none, c)
  else return (readRecord st.conv raw, c)

def get (requestId : String) (c : Cache) : Call (Option StoredRecord × Cache) := do
  let (enabled, c) ← c.enabled st.backoffSeconds
  if !enabled then throw .decisionStoreUnavailable else do
  let (raw, c) ← c.get st.backoffSeconds (key requestId)
  st.answer raw c

end Store

/-! ## What a call sees of Redis -/

/-- A command that Redis has failed. -/
def Failed : Event → Prop
  | ⟨.get _, .error _⟩ | ⟨.set .., .error _⟩ => True
  | _ => False

/-- A connection attempt has succeeded. -/
def Reached (es : List Event) : Prop := (⟨.connect, true⟩ : Event) ∈ es

/-- A command fails, and after it a connection attempt succeeds. -/
def ComesBack : List Event → Prop
  | [] => False
  | e :: es => (Failed e ∧ Reached es) ∨ ComesBack es

/-- Nothing but the clock and connection attempts. -/
def Quiet (es : List Event) : Prop := ∀ e ∈ es, e.1 = .monotonic ∨ e.1 = .connect

theorem quiet_nil : Quiet [] := fun _ he => absurd he List.not_mem_nil

theorem Quiet.not_failed {es : List Event} (h : Quiet es) {e : Event} (he : e ∈ es) :
    ¬ Failed e := by
  obtain ⟨cmd, reply⟩ := e
  intro hfailed
  cases cmd with
  | monotonic => exact hfailed
  | connect => exact hfailed
  | get k => cases h _ he <;> contradiction
  | set k value ex => cases h _ he <;> contradiction

/-- A command is not there that was only failed. -/
theorem Quiet.notMem {es es' : List Event} (h : Quiet es) (h' : Quiet es') {e e' : Event}
    (hm : e.1 ≠ .monotonic) (hc : e.1 ≠ .connect) (hne : e ≠ e') : e ∉ es ++ e' :: es' := by
  intro he
  rcases List.mem_append.mp he with he | he
  · exact (h e he).elim hm hc
  · rcases List.mem_cons.mp he with he | he
    · exact hne he
    · exact (h' e he).elim hm hc

theorem Quiet.not_comesBack {es : List Event} (h : Quiet es) : ¬ ComesBack es := by
  induction es with
  | nil => exact id
  | cons e es ih =>
    intro hback
    rcases hback with ⟨hfailed, -⟩ | hback
    · exact h.not_failed List.mem_cons_self hfailed
    · exact ih (fun e he => h e (List.mem_cons_of_mem _ he)) hback

/-- Of a call that sends one command, what matters is what follows the command. -/
theorem comesBack_iff {es₁ es₂ : List Event} {e : Event} (h₁ : Quiet es₁) (h₂ : Quiet es₂) :
    ComesBack (es₁ ++ e :: es₂) ↔ Failed e ∧ Reached es₂ := by
  induction es₁ with
  | nil =>
    show (_ ∨ _) ↔ _
    exact or_iff_left h₂.not_comesBack
  | cons e' es₁ ih =>
    show (Failed e' ∧ Reached (es₁ ++ e :: es₂)) ∨ ComesBack (es₁ ++ e :: es₂) ↔ _
    rw [ih fun e he => h₁ e (List.mem_cons_of_mem _ he)]
    exact or_iff_right fun h => h₁.not_failed List.mem_cons_self h.1

/-! ## What the cache does -/

section Cache

variable {backoffSeconds : Time} {c : Cache} {es : List Event}

/-- With a client nothing is asked. -/
theorem emits_getClient_connected {o : Except Exc (Bool × Cache)} (h : c.connected = true) :
    Prog.Emits (c.getClient backoffSeconds) es o ↔ es = [] ∧ o = .ok (true, c) := by
  rw [Cache.getClient, if_pos h]
  exact Prog.emits_ret

/-- What asking for a client can come to. -/
structure Asked (es : List Event) (c' : Cache) : Prop where
  quiet : Quiet es
  reached : c'.connected = true ↔ Reached es

theorem Asked.not_yet (h : c.connected = false) : Asked [] c where
  quiet := fun e he => absurd he List.not_mem_nil
  reached := by simp [h, Reached]

theorem Asked.connect (now : Time) (r : Bool) : Asked [⟨.connect, r⟩] ⟨r, some now⟩ where
  quiet := fun e he => Or.inr (congrArg Sigma.fst (List.mem_singleton.mp he))
  reached := by cases r <;> simp [Reached]

/-- The clock says nothing. -/
theorem Asked.tick {c' : Cache} (h : Asked es c') (now : Time) :
    Asked (⟨.monotonic, now⟩ :: es) c' where
  quiet := List.forall_mem_cons.mpr ⟨Or.inl rfl, h.quiet⟩
  reached := h.reached.trans (by simp [Reached])

/-- Without one there is a client afterwards if a connection attempt succeeds. -/
theorem emits_getClient {o : Except Exc (Bool × Cache)} (h : c.connected = false)
    (hrun : Prog.Emits (c.getClient backoffSeconds) es o) :
    ∃ c', o = .ok (c'.connected, c') ∧ Asked es c' := by
  have hwaits : (.ok (false, c) : Except Exc (Bool × Cache)) = .ok (c.connected, c) := by rw [h]
  rw [Cache.getClient, if_neg (by rw [h]; exact Bool.false_ne_true)] at hrun
  simp only [Prog.perform_bind, Prog.emits_cmd, Prog.onReply_ok] at hrun
  obtain ⟨now, es, rfl, hrun⟩ := hrun
  split at hrun
  · obtain ⟨rfl, rfl⟩ := Prog.emits_ret.mp hrun
    exact ⟨c, hwaits, (Asked.not_yet h).tick now⟩
  · simp only [Prog.emits_cmd, Prog.onReply_ok] at hrun
    obtain ⟨now', es, rfl, hrun⟩ := hrun
    split at hrun
    · obtain ⟨rfl, rfl⟩ := Prog.emits_ret.mp hrun
      exact ⟨c, hwaits, ((Asked.not_yet h).tick now').tick now⟩
    · simp only [Prog.emits_cmd, Prog.onReply_ok] at hrun
      obtain ⟨r, es, rfl, hrun⟩ := hrun
      obtain ⟨rfl, rfl⟩ := Prog.emits_ret.mp hrun
      exact ⟨⟨r, some now'⟩, rfl, ((Asked.connect now' r).tick now').tick now⟩

/-- Whether or not there was a client before. -/
theorem emits_enabled {o : Except Exc (Bool × Cache)}
    (hrun : Prog.Emits (c.enabled backoffSeconds) es o) :
    Quiet es ∧ ∃ c', o = .ok (c'.connected, c') := by
  cases hc : c.connected with
  | true =>
    obtain ⟨rfl, rfl⟩ := (emits_getClient_connected hc).mp hrun
    exact ⟨fun e he => absurd he List.not_mem_nil, c, by rw [hc]⟩
  | false =>
    obtain ⟨c', rfl, hasked⟩ := emits_getClient hc hrun
    exact ⟨hasked.quiet, c', rfl⟩

/-- With a client a SET is sent; the client is dropped if it fails. -/
theorem emits_set {k : String} {v : Json} {ttl : Nat} {o : Except Exc Cache}
    (hc : c.connected = true) (hrun : Prog.Emits (c.set backoffSeconds k v ttl) es o) :
    (es = [⟨.set k (dumps v) ttl, .ok ()⟩] ∧ o = .ok c) ∨
      ∃ e, es = [⟨.set k (dumps v) ttl, .error e⟩] ∧ o = .ok c.invalidate := by
  rw [Cache.set, Cache.getClient, if_pos hc] at hrun
  simp only [Prog.pure_eq, Prog.ret_bind, Bool.not_true, Bool.false_eq_true, if_false,
    Prog.perform_bind, Prog.emits_cmd, Prog.onReply_ok] at hrun
  obtain ⟨reply, es, rfl, hrun⟩ := hrun
  cases reply with
  | ok =>
    obtain ⟨rfl, rfl⟩ := Prog.emits_ret.mp hrun
    exact Or.inl ⟨rfl, rfl⟩
  | error e =>
    obtain ⟨rfl, rfl⟩ := Prog.emits_ret.mp hrun
    exact Or.inr ⟨e, rfl, rfl⟩

/-- The same of a GET. -/
theorem emits_get {k : String} {o : Except Exc (Json × Cache)}
    (hc : c.connected = true) (hrun : Prog.Emits (c.get backoffSeconds k) es o) :
    (∃ raw, es = [⟨.get k, .ok raw⟩] ∧ o = (Cache.parsed raw).map (·, c)) ∨
      ∃ e, es = [⟨.get k, .error e⟩] ∧ o = .ok (.null, c.invalidate) := by
  rw [Cache.get, Cache.getClient, if_pos hc] at hrun
  simp only [Prog.pure_eq, Prog.ret_bind, Bool.not_true, Bool.false_eq_true, if_false,
    Prog.perform_bind, Prog.emits_cmd, Prog.onReply_ok] at hrun
  obtain ⟨reply, es, rfl, hrun⟩ := hrun
  cases reply with
  | ok raw =>
    refine Or.inl ⟨raw, ?_⟩
    dsimp only at hrun
    split at hrun
    · rename_i v hv
      obtain ⟨rfl, rfl⟩ := Prog.emits_ret.mp hrun
      exact ⟨rfl, by rw [hv]; rfl⟩
    · rename_i e he
      obtain ⟨rfl, rfl⟩ := Prog.emits_raise.mp hrun
      exact ⟨rfl, by rw [he]; rfl⟩
  | error e =>
    obtain ⟨rfl, rfl⟩ := Prog.emits_ret.mp hrun
    exact Or.inr ⟨e, rfl, rfl⟩

end Cache

/-! ## What the store does -/

section Store

variable {st : Store} {c : Cache} {es : List Event}

/-- The three ways a save can go. -/
inductive Saved (st : Store) (record : StoredRecord) :
    List Event → Except Exc (Bool × Cache) → Prop
  | disabled {es : List Event} {c : Cache} (quiet : Quiet es) :
      Saved st record es (.ok (false, c))
  | written {es : List Event} {c : Cache} (quiet : Quiet es) :
      Saved st record (es ++ [⟨st.write record, .ok ()⟩]) (.ok (true, c))
  | failed {es es' : List Event} {c : Cache} (e : RedisError) (quiet : Quiet es)
      (asked : Asked es' c) :
      Saved st record (es ++ ⟨st.write record, .error e⟩ :: es') (.ok (c.connected, c))

theorem emits_save {record : StoredRecord} {o : Except Exc (Bool × Cache)}
    (hrun : Prog.Emits (st.save record c) es o) : Saved st record es o := by
  rcases Prog.emits_bind.mp hrun with ⟨es₁, es₂, ⟨enabled, c₁⟩, rfl, hfirst, hrun⟩ | ⟨e, hfirst, -⟩
  · obtain ⟨hquiet, c', heq⟩ := emits_enabled hfirst
    cases heq
    cases hc : c₁.connected with
    | false =>
      simp only [hc, Bool.not_false, if_true] at hrun
      obtain ⟨rfl, rfl⟩ := Prog.emits_ret.mp hrun
      rw [List.append_nil]
      exact .disabled hquiet
    | true =>
      simp only [hc, Bool.not_true, Bool.false_eq_true, if_false] at hrun
      rcases Prog.emits_bind.mp hrun with ⟨es₂, es₃, c₂, rfl, hset, hlast⟩ | ⟨e, hset, -⟩
      · rcases emits_set hc hset with ⟨rfl, heq⟩ | ⟨e, rfl, heq⟩
        · cases heq
          obtain ⟨rfl, rfl⟩ := (emits_getClient_connected hc).mp hlast
          exact .written hquiet
        · cases heq
          obtain ⟨c₃, rfl, hasked⟩ := emits_getClient rfl hlast
          exact .failed e hquiet hasked
      · rcases emits_set hc hset with ⟨-, heq⟩ | ⟨e, -, heq⟩ <;> cases heq
  · obtain ⟨-, c', heq⟩ := emits_enabled hfirst
    cases heq

/-- The valid record in what a GET has brought. -/
def found (conv : Conversions) (raw : Option Raw) : Option StoredRecord :=
  match Cache.parsed raw with
  | .ok v => readRecord conv v
  | .error _ => none

/-- The three ways a query can go. -/
inductive Queried (st : Store) (requestId : String) :
    List Event → Except Exc (Option StoredRecord × Cache) → Prop
  | disabled {es : List Event} (quiet : Quiet es) :
      Queried st requestId es (.error .decisionStoreUnavailable)
  | read {es : List Event} {o : Except Exc (Option StoredRecord × Cache)} (raw : Option Raw)
      (quiet : Quiet es) (answers : ∀ record c, o = .ok (record, c) → found st.conv raw = record) :
      Queried st requestId (es ++ [⟨.get (key requestId), .ok raw⟩]) o
  | failed {es es' : List Event} {c : Cache} (e : RedisError) (quiet : Quiet es)
      (asked : Asked es' c) :
      Queried st requestId (es ++ ⟨.get (key requestId), .error e⟩ :: es')
        (if c.connected then .ok (none, c) else .error .decisionStoreUnavailable)

theorem eq_null {v : Json} (h : v.isNone = true) : v = .null := by
  cases v with
  | null => rfl
  | _ => cases h

/-- With a client that is still there, a missing value is a missing record. -/
theorem emits_answer {v : Json} {o : Except Exc (Option StoredRecord × Cache)}
    (hc : c.connected = true) (hrun : Prog.Emits (st.answer v c) es o) :
    es = [] ∧ o = .ok (readRecord st.conv v, c) := by
  cases hnone : v.isNone with
  | true =>
    obtain rfl := eq_null hnone
    rw [Store.answer, if_pos hnone, Cache.enabled, Cache.getClient, if_pos hc] at hrun
    exact Prog.emits_ret.mp hrun
  | false =>
    rw [Store.answer, if_neg (by rw [hnone]; exact Bool.false_ne_true)] at hrun
    exact Prog.emits_ret.mp hrun

/-- With a client that was dropped, it depends on getting another. -/
theorem emits_answer_dropped {o : Except Exc (Option StoredRecord × Cache)}
    (hc : c.connected = false) (hrun : Prog.Emits (st.answer .null c) es o) :
    ∃ c', Asked es c' ∧
      o = if c'.connected then .ok (none, c') else .error .decisionStoreUnavailable := by
  rw [Store.answer, if_pos (show Json.null.isNone = true from rfl)] at hrun
  rcases Prog.emits_bind.mp hrun with ⟨es₁, es₂, r, rfl, hask, hlast⟩ | ⟨e, hask, -⟩
  · obtain ⟨c', heq, hasked⟩ := emits_getClient hc hask
    cases heq
    cases hc' : c'.connected with
    | false =>
      simp only [hc', Bool.not_false, if_true] at hlast
      obtain ⟨rfl, rfl⟩ := Prog.emits_raise.mp hlast
      rw [List.append_nil]
      exact ⟨c', hasked, by simp [hc']⟩
    | true =>
      simp only [hc', Bool.not_true, Bool.false_eq_true, if_false] at hlast
      obtain ⟨rfl, rfl⟩ := Prog.emits_ret.mp hlast
      rw [List.append_nil]
      exact ⟨c', hasked, by simp [hc']⟩
  · obtain ⟨c', heq, -⟩ := emits_getClient hc hask
    cases heq

theorem emits_query {requestId : String} {o : Except Exc (Option StoredRecord × Cache)}
    (hrun : Prog.Emits (st.get requestId c) es o) : Queried st requestId es o := by
  rcases Prog.emits_bind.mp hrun with ⟨es₁, es₂, ⟨enabled, c₁⟩, rfl, hfirst, hrun⟩ | ⟨e, hfirst, -⟩
  · obtain ⟨hquiet, c', heq⟩ := emits_enabled hfirst
    cases heq
    cases hc : c₁.connected with
    | false =>
      simp only [hc, Bool.not_false, if_true] at hrun
      obtain ⟨rfl, rfl⟩ := Prog.emits_raise.mp hrun
      rw [List.append_nil]
      exact .disabled hquiet
    | true =>
      simp only [hc, Bool.not_true, Bool.false_eq_true, if_false] at hrun
      rcases Prog.emits_bind.mp hrun with ⟨es₂, es₃, ⟨v, c₂⟩, rfl, hget, hlast⟩ | ⟨e, hget, rfl⟩
      · rcases emits_get hc hget with ⟨raw, rfl, heq⟩ | ⟨e, rfl, heq⟩
        · cases hparsed : Cache.parsed raw with
          | error e =>
            rw [hparsed] at heq
            cases heq
          | ok v' =>
            rw [hparsed] at heq
            cases heq
            obtain ⟨rfl, rfl⟩ := emits_answer hc hlast
            refine .read raw hquiet fun record c he => ?_
            cases he
            rw [found, hparsed]
        · cases heq
          -- the connection was dropped, and `enabled` asks again whether there is one
          obtain ⟨c₃, hasked, rfl⟩ := emits_answer_dropped rfl hlast
          exact .failed e hquiet hasked
      · rcases emits_get hc hget with ⟨raw, rfl, -⟩ | ⟨e, -, heq⟩
        · refine .read raw hquiet fun record c he => ?_
          cases he
        · cases heq
  · obtain ⟨-, c', heq⟩ := emits_enabled hfirst
    cases heq

/-! ## When the store is right -/

/-- A save that says so has written the record. -/
def SaveTells (st : Store) (record : StoredRecord) (es : List Event)
    (o : Except Exc (Bool × Cache)) : Prop :=
  ∀ c, o = .ok (true, c) → (⟨st.write record, .ok ()⟩ : Event) ∈ es

/-- A query that finds nothing has seen that there is nothing, and one that has seen nothing says
so. -/
structure GetTells (st : Store) (requestId : String) (es : List Event)
    (o : Except Exc (Option StoredRecord × Cache)) : Prop where
  missing : ∀ c, o = .ok (none, c) →
    ∃ raw, (⟨.get (key requestId), .ok raw⟩ : Event) ∈ es ∧ found st.conv raw = none
  unavailable : (∀ raw, (⟨.get (key requestId), .ok raw⟩ : Event) ∉ es) →
    o = .error .decisionStoreUnavailable

theorem saveTells_iff {record : StoredRecord} {o : Except Exc (Bool × Cache)}
    (h : Saved st record es o) : SaveTells st record es o ↔ ¬ ComesBack es := by
  cases h with
  | disabled quiet =>
    refine iff_of_true (fun c he => ?_) quiet.not_comesBack
    cases he
  | written quiet =>
    refine iff_of_true (fun c he => ?_) fun hback => ?_
    · exact List.mem_append_right _ List.mem_cons_self
    · exact ((comesBack_iff quiet quiet_nil).mp hback).1
  | failed e quiet asked =>
    rw [comesBack_iff quiet asked.quiet, ← asked.reached]
    constructor
    · intro htells hback
      refine quiet.notMem asked.quiet (fun h => ?_) (fun h => ?_) (fun h => ?_)
        (htells _ (by rw [hback.2]))
      · cases h
      · cases h
      · cases h
    · intro hback c' he
      exact absurd ⟨trivial, congrArg Prod.fst (Except.ok.inj he)⟩ hback

theorem getTells_iff {requestId : String} {o : Except Exc (Option StoredRecord × Cache)}
    (h : Queried st requestId es o) : GetTells st requestId es o ↔ ¬ ComesBack es := by
  cases h with
  | disabled quiet =>
    refine iff_of_true ⟨fun c he => ?_, fun _ => rfl⟩ quiet.not_comesBack
    cases he
  | read raw quiet answers =>
    refine iff_of_true ⟨fun c he => ?_, fun hnone => ?_⟩ fun hback => ?_
    · exact ⟨raw, List.mem_append_right _ List.mem_cons_self, answers none c he⟩
    · exact absurd (List.mem_append_right _ List.mem_cons_self) (hnone raw)
    · exact ((comesBack_iff quiet quiet_nil).mp hback).1
  | @failed es₁ es₂ c' e quiet asked =>
    have hnone : ∀ raw, (⟨.get (key requestId), .ok raw⟩ : Event) ∉
        es₁ ++ ⟨.get (key requestId), .error e⟩ :: es₂ := by
      intro raw
      refine quiet.notMem asked.quiet (fun h => ?_) (fun h => ?_) (fun h => ?_) <;> cases h
    rw [comesBack_iff quiet asked.quiet, ← asked.reached]
    constructor
    · intro htells hback
      have hraised := htells.unavailable hnone
      rw [if_pos hback.2] at hraised
      cases hraised
    · intro hback
      have hlost : ¬ c'.connected = true := fun h => hback ⟨trivial, h⟩
      rw [if_neg hlost]
      refine ⟨fun c he => ?_, fun _ => rfl⟩
      cases he

/-- **The store tells the truth about Redis unless Redis comes back during the call**, whatever
the cache has seen before, whatever the clock says and however Redis answers. -/
theorem tells_iff (st : Store) (c : Cache) :
    (∀ record es o, Prog.Emits (st.save record c) es o →
      (SaveTells st record es o ↔ ¬ ComesBack es)) ∧
    ∀ requestId es o, Prog.Emits (st.get requestId c) es o →
      (GetTells st requestId es o ↔ ¬ ComesBack es) :=
  ⟨fun _ _ _ hrun => saveTells_iff (emits_save hrun),
    fun _ _ _ hrun => getTells_iff (emits_query hrun)⟩

end Store

/-! ## An outage that is forgotten -/

section Example

/-- The command fails; the window is over, and Redis is there again. -/
def outage (command : Event) (now : Time) : List Event :=
  [command, ⟨.monotonic, now⟩, ⟨.monotonic, now⟩, ⟨.connect, true⟩]

variable {st : Store} {c : Cache} {now : Time} (hc : c.connected = true)
  (hover : c.backsOff st.backoffSeconds now = false)

include hover

theorem emits_getClient_again :
    Prog.Emits (c.invalidate.getClient st.backoffSeconds)
      [⟨.monotonic, now⟩, ⟨.monotonic, now⟩, ⟨.connect, true⟩] (.ok (true, ⟨true, some now⟩)) := by
  have hwait : ¬ c.invalidate.backsOff st.backoffSeconds now = true := by
    rw [show c.invalidate.backsOff st.backoffSeconds now = false from hover]
    exact Bool.false_ne_true
  rw [Cache.getClient, if_neg (show ¬ c.invalidate.connected = true from Bool.false_ne_true)]
  simp only [Prog.perform_bind]
  refine ⟨now, _, rfl, ?_⟩
  rw [Prog.onReply_ok, if_neg hwait]
  refine ⟨now, _, rfl, ?_⟩
  rw [Prog.onReply_ok, if_neg hwait]
  exact ⟨true, _, rfl, rfl, rfl⟩

include hc

theorem emits_save_outage (record : StoredRecord) : Prog.Emits (st.save record c)
    (outage ⟨st.write record, .error .redisError⟩ now) (.ok (true, ⟨true, some now⟩)) := by
  refine Prog.emits_bind.mpr (Or.inl ⟨[], _, (true, c), rfl,
    (emits_getClient_connected hc).mpr ⟨rfl, rfl⟩, ?_⟩)
  refine Prog.emits_bind.mpr (Or.inl ⟨[_], _, c.invalidate, rfl, ?_, emits_getClient_again hover⟩)
  rw [Cache.set, Cache.getClient, if_pos hc]
  exact ⟨_, _, rfl, rfl, rfl⟩

theorem emits_get_outage (requestId : String) : Prog.Emits (st.get requestId c)
    (outage ⟨.get (key requestId), .error .redisError⟩ now) (.ok (none, ⟨true, some now⟩)) := by
  refine Prog.emits_bind.mpr (Or.inl ⟨[], _, (true, c), rfl,
    (emits_getClient_connected hc).mpr ⟨rfl, rfl⟩, ?_⟩)
  refine Prog.emits_bind.mpr (Or.inl ⟨[_], _, (.null, c.invalidate), rfl, ?_, ?_⟩)
  · rw [Cache.get, Cache.getClient, if_pos hc]
    exact ⟨_, _, rfl, rfl, rfl⟩
  · exact Prog.emits_bind.mpr (Or.inl ⟨_, [], _, (List.append_nil _).symm,
      emits_getClient_again hover, rfl, rfl⟩)

end Example

/-- Reading and writing the times of the example below. -/
def exampleConversions : Conversions where
  coercions := .textless
  writeTime := fun t =>
    if t = 0 then str "1970-01-01T00:00:00Z" else str "1970-01-01T01:00:00Z"
  readTime := fun v =>
    if v.isText "1970-01-01T00:00:00Z" then some 0
    else if v.isText "1970-01-01T01:00:00Z" then some 3600
    else none

theorem hour_bounds : 60 ≤ 3600 ∧ 3600 ≤ 86400 := by decide

def exampleStore : Store where
  ttlSeconds := ⟨3600, hour_bounds⟩
  backoffSeconds := 2
  conv := exampleConversions

def exampleRequestId : String := "req_0123456789abcdef0123456789abcdef"

theorem isRequestId_example : isRequestId exampleRequestId = true := by decide +kernel

theorem mock_ne : "mock-a" ≠ "" := by decide

theorem not_below_free : (PyFloat.ofRat 0).below 0 = false := by decide +kernel

theorem no_failover : (none : Option String).isSome ↔ 0 < 0 := by decide

theorem zero_lt_hour : (0 : Time) < 3600 := by norm_num

def exampleRecord : StoredRecord where
  requestId := ⟨exampleRequestId, isRequestId_example⟩
  outcome := .success
  chosenProvider := ⟨"mock-a", mock_ne⟩
  initialProvider := ⟨"mock-a", mock_ne⟩
  reason := ⟨"mock-a", mock_ne⟩
  cacheHit := false
  stream := false
  costEstimateUsd := ⟨.ofRat 0, not_below_free⟩
  latencyMs := 12
  tokens := ⟨3, 4⟩
  retries := 0
  failoverFrom := none
  failoverCount := 0
  createdAt := 0
  expiresAt := 3600
  failover := no_failover
  lasts := zero_lt_hour

/-- A cache that has connected at the time 0 loses a record, and denies one, at the time 10. -/
theorem outage_forgotten : ∃ es es' c,
    Prog.Emits (exampleStore.save exampleRecord ⟨true, some 0⟩) es (.ok (true, c)) ∧
    (⟨exampleStore.write exampleRecord, .ok ()⟩ : Event) ∉ es ∧
    Prog.Emits (exampleStore.get exampleRequestId ⟨true, some 0⟩) es' (.ok (none, c)) ∧
    ∀ raw, (⟨.get (key exampleRequestId), .ok raw⟩ : Event) ∉ es' := by
  have hover : (Cache.mk true (some 0)).backsOff exampleStore.backoffSeconds 10 = false := by
    decide +kernel
  refine ⟨_, _, _, emits_save_outage rfl hover exampleRecord, ?_,
    emits_get_outage rfl hover exampleRequestId, ?_⟩
  · simp [outage, Store.write]
  · simp [outage]

/-- The same cache when Redis answers, and when it has failed and come back. -/
theorem tells_iff_example :
    SaveTells exampleStore exampleRecord [⟨exampleStore.write exampleRecord, .ok ()⟩]
      (.ok (true, ⟨true, some 0⟩)) ∧
    ¬ GetTells exampleStore exampleRequestId
      (outage ⟨.get (key exampleRequestId), .error .redisError⟩ 10)
      (.ok (none, ⟨true, some 10⟩)) := by
  have hover : (Cache.mk true (some 0)).backsOff exampleStore.backoffSeconds 10 = false := by
    decide +kernel
  obtain ⟨hsave, hget⟩ := tells_iff exampleStore ⟨true, some 0⟩
  refine ⟨(hsave _ _ _ ⟨.ok (), [], rfl, rfl, rfl⟩).mpr ?_,
    fun h => (hget _ _ _ (emits_get_outage rfl hover exampleRequestId)).mp h ?_⟩
  · intro hback
    rcases hback with ⟨hfailed, -⟩ | hback
    · exact hfailed
    · exact hback
  · exact Or.inl ⟨trivial, by simp [Reached]⟩

end PolyGate.Gateway.DecisionStore
