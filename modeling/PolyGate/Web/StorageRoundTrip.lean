import PolyGate.Web.Storage

/-!
# `Web/StorageRoundTrip.lean` — what comes back from the storage of the browser

One number that a schema refuses makes `restoreState` forget every conversation. Decision cards and
errors have passed the same checks before, and come back but for the sign of a zero. The routing
panel has no upper bound for its numbers: a latency target from `2 ^ 53` on is not a safe integer,
and is refused (`roundTrip_iff`).
-/

namespace PolyGate.Web.Storage

open Lib Ecma Zod

/-! ## Strings and numbers through JSON -/

/-- Unpaired surrogates are written as their escapes, so every string of the page comes back. -/
theorem units_ofUnits (s : JsString) : units (ofUnits s) = s := by
  unfold units ofUnits utf16
  induction s with
  | nil => rfl
  | cons u s ih =>
    have hu : (Fin.castLE units_le u).val < 0x10000 := u.isLt
    rw [List.map_cons, List.flatMap_cons, if_pos hu, List.map_append, ih]
    exact congrArg₂ List.cons (Fin.ext (Nat.mod_eq_of_lt u.isLt)) rfl

/-- A string of the page is read as it was written. -/
@[simp] theorem text_textValue (s : JsString) : text (throughJson (textValue s)) = some s := by
  show some (units (ofUnits s)) = some s
  rw [units_ofUnits]

@[simp] theorem ident_identValue (s : String) : ident (throughJson (identValue s)) = some s :=
  decode_str s

/-- What a finite number comes back as: `0` for `-0`. -/
def plus : PyFloat → PyFloat
  | .finite neg m => .finite (neg && decide (m ≠ 0)) m
  | x => x

/-- Minus zero is the only number that changes. -/
theorem plus_eq_iff {x : PyFloat} : plus x = x ↔ x ≠ .finite true 0 := by
  cases x with
  | finite neg m => cases neg <;> simp [plus]
  | inf neg => simp [plus]
  | nan => simp [plus]

/-- The sign of a zero does not show in the value, so no bound of a schema sees it. -/
theorem value_plus (neg : Bool) (m : ℚ≥0) :
    PyFloat.value (neg && decide (m ≠ 0)) m = PyFloat.value neg m := by
  by_cases hm : m = 0
  · simp [hm, PyFloat.value]
  · simp [hm]

theorem atLeast_plus (x : PyFloat) (q : ℚ) : (plus x).atLeast q = x.atLeast q := by
  cases x with
  | finite neg m => exact congrArg (fun y => decide (q ≤ y)) (value_plus neg m)
  | _ => rfl

theorem above_plus (x : PyFloat) (q : ℚ) : (plus x).above q = x.above q := by
  cases x with
  | finite neg m => exact congrArg (fun y => decide (q < y)) (value_plus neg m)
  | _ => rfl

theorem isSafeInteger_plus (x : PyFloat) : isSafeInteger (plus x) = isSafeInteger x := by
  cases x <;> rfl

/-- A schema of numbers, before and after JSON. -/
structure OfNumbers (schema : Schema PyFloat) : Prop where
  through : ∀ x, schema (throughJson (.number x)) = (schema (.number x)).map plus
  passes : ∀ v x, schema v = some x → v = .number x

/-- NaN and the infinities are written as `null`, which `z.number` refuses. -/
theorem ofNumbers_number : OfNumbers number where
  through x := by cases x <;> rfl
  passes v x h := by
    unfold Zod.number at h
    split at h
    · rw [Option.some.inj h]
    · cases h

/-- A check that does not see the sign of a zero keeps this. -/
theorem OfNumbers.check {schema : Schema PyFloat} {p : PyFloat → Bool} (h : OfNumbers schema)
    (hp : ∀ x, p (plus x) = p x) : OfNumbers (check schema p) where
  through x := by
    unfold Zod.check
    rw [h.through]
    cases schema (.number x) with
    | none => rfl
    | some y => simp [Option.filter, hp, apply_ite]
  passes v x hx := by
    obtain ⟨hv, -⟩ := Option.filter_eq_some_iff.mp hx
    exact h.passes v x hv

theorem ofNumbers_cost : OfNumbers (nonnegative number) :=
  ofNumbers_number.check fun x => atLeast_plus x 0

theorem ofNumbers_int : OfNumbers (int number) := ofNumbers_number.check isSafeInteger_plus

theorem ofNumbers_count : OfNumbers count := ofNumbers_int.check fun x => atLeast_plus x 0

theorem ofNumbers_latency : OfNumbers (positive (int number)) :=
  ofNumbers_int.check fun x => above_plus x 0

/-- The schema lets a number pass. -/
def Passes (schema : Schema PyFloat) (x : PyFloat) : Prop := schema (.number x) = some x

theorem OfNumbers.passes_of {schema : Schema PyFloat} (h : OfNumbers schema) {v : Value}
    {x : PyFloat} (hx : schema v = some x) : Passes schema x := by
  have hv := h.passes v x hx
  rwa [hv] at hx

/-- What has passed once passes again. -/
theorem OfNumbers.reads {schema : Schema PyFloat} (h : OfNumbers schema) {x : PyFloat}
    (hx : Passes schema x) : schema (throughJson (.number x)) = some (plus x) := by
  rw [h.through, hx]
  rfl

/-! ## Choices and fields that may be absent -/

@[simp] theorem enum_quality (q : Quality) :
    enum qualityChoices (throughJson (qualityValue q)) = some q := by
  cases q <;> rfl

@[simp] theorem enum_privacy (p : Privacy) :
    enum privacyChoices (throughJson (privacyValue p)) = some p := by
  cases p <;> rfl

@[simp] theorem enum_outcome (o : CardOutcome) :
    enum outcomeChoices (throughJson (outcomeValue o)) = some o := by
  cases o <;> rfl

@[simp] theorem enum_errorKind (k : MessageErrorKind) :
    enum errorKindChoices (throughJson (errorKindValue k)) = some k := by
  cases k <;> rfl

@[simp] theorem enum_role (r : MessageRole) :
    enum roleChoices (throughJson (roleValue r)) = some r := by
  cases r <;> rfl

@[simp] theorem enum_status (s : MessageStatus) :
    enum statusChoices (throughJson (statusValue s)) = some s := by
  cases s <;> rfl

@[simp] theorem boolean_through (b : Bool) : boolean (throughJson (.bool b)) = some b := rfl

section
variable {α : Type} {schema : Schema α} {f : α → Value} {g : α → Option α}

/-- An absent field stays absent. A value never reads as an absent one, since only `undefined`
leaves its field out. -/
theorem optional_through {o : Option α} (hdefined : ∀ a, throughJson (f a) ≠ .undefined)
    (hreads : ∀ a ∈ o, schema (throughJson (f a)) = g a) :
    Zod.optional schema (throughJson (orUndefined f o)) =
      o.elim (some none) fun a => (g a).map some := by
  cases o with
  | none => rfl
  | some a =>
    have ha := hdefined a
    rw [orUndefined, Option.elim_some, ← hreads a rfl]
    unfold Zod.optional
    split
    · contradiction
    · rfl

end

theorem text_defined (s : JsString) : throughJson (textValue s) ≠ .undefined := by
  intro h
  cases h

theorem ident_defined (s : String) : throughJson (identValue s) ≠ .undefined := by
  intro h
  cases h

theorem record_defined (fields : List (String × Value)) :
    throughJson (record fields) ≠ .undefined := by
  intro h
  cases h

@[simp] theorem optional_text (o : Option JsString) :
    Zod.optional text (throughJson (orUndefined textValue o)) = some o := by
  rw [optional_through text_defined fun s _ => text_textValue s]
  cases o <;> rfl

@[simp] theorem optional_ident (o : Option String) :
    Zod.optional ident (throughJson (orUndefined identValue o)) = some o := by
  rw [optional_through ident_defined fun s _ => ident_identValue s]
  cases o <;> rfl

@[simp] theorem optional_boolean (o : Option Bool) :
    Zod.optional boolean (throughJson (orUndefined .bool o)) = some o := by
  rw [optional_through (fun b h => by cases h) fun b _ => boolean_through b]
  cases o <;> rfl

@[simp] theorem optional_outcome (o : Option CardOutcome) :
    Zod.optional (enum outcomeChoices) (throughJson (orUndefined outcomeValue o)) = some o := by
  rw [optional_through (fun a => by cases a <;> exact nofun) fun a _ => enum_outcome a]
  cases o <;> rfl

/-- Numbers that may be absent: `failoverCount` and `status`. -/
theorem optional_number {schema : Schema PyFloat} (h : OfNumbers schema) {o : Option PyFloat}
    (ho : ∀ x ∈ o, Passes schema x) :
    Zod.optional schema (throughJson (orUndefined .number o)) = some (o.map plus) := by
  rw [optional_through (fun x => by rcases x with ⟨_, _⟩ | _ | _ <;> exact nofun) fun x hx =>
    h.reads (ho x hx)]
  cases o <;> rfl

@[simp] theorem nullable_text (o : Option JsString) :
    nullable text (throughJson (orNull textValue o)) = some o := by
  cases o with
  | none => rfl
  | some s => exact congrArg (Option.map some) (text_textValue s)

@[simp] theorem nullable_ident (o : Option String) :
    nullable ident (throughJson (orNull identValue o)) = some o := by
  cases o with
  | none => rfl
  | some s => exact congrArg (Option.map some) (ident_identValue s)

/-! ## Records -/

/-- All numbers of the settings. -/
def mapSettings (f : PyFloat → PyFloat) (s : RoutingSettings) : RoutingSettings :=
  { s with maxCostUsd := f s.maxCostUsd, latencyTargetMs := f s.latencyTargetMs }

def mapTokens (f : PyFloat → PyFloat) (t : TokenUsage) : TokenUsage where
  input := f t.input
  output := f t.output

def mapCard (f : PyFloat → PyFloat) (c : DecisionCardData) : DecisionCardData :=
  { c with
    costEstimateUsd := f c.costEstimateUsd
    latencyMs := f c.latencyMs
    tokens := mapTokens f c.tokens
    retries := f c.retries
    failoverCount := c.failoverCount.map f }

def mapError (f : PyFloat → PyFloat) (e : MessageError) : MessageError :=
  { e with status := e.status.map f }

def mapMessage (f : PyFloat → PyFloat) (m : ChatMessage) : ChatMessage :=
  { m with
    requestSettings := m.requestSettings.map (mapSettings f)
    decisionCard := m.decisionCard.map (mapCard f)
    error := m.error.map (mapError f)
    warning := m.warning.map (mapError f) }

def mapConversation (f : PyFloat → PyFloat) (c : Conversation) : Conversation :=
  { c with settings := mapSettings f c.settings, messages := c.messages.map (mapMessage f) }

/-- Settings that the page can hold: a limit may be infinite, and a target too large. -/
structure SoundSettings (s : RoutingSettings) : Prop where
  cost : s.maxCostUsd = .inf false ∨ Passes (nonnegative number) s.maxCostUsd
  latency : s.latencyTargetMs.below (2 ^ 53) = false ∨
    Passes (positive (int number)) s.latencyTargetMs

/-- Settings that the schema lets pass. -/
def Fits (s : RoutingSettings) : Prop :=
  s.maxCostUsd ≠ .inf false ∧ s.latencyTargetMs.below (2 ^ 53) = true

instance (s : RoutingSettings) : Decidable (Fits s) := inferInstanceAs (Decidable (_ ∧ _))

/-- A safe integer is below `2 ^ 53`, with either sign. -/
theorem below_of_safe {x : PyFloat} (h : isSafeInteger x = true) : x.below (2 ^ 53) = true := by
  cases x with
  | finite neg m =>
    obtain ⟨hden, hnum⟩ := of_decide_eq_true h
    have hm : (m : ℚ) < 2 ^ 53 := by
      have hcast : (m : ℚ) = (m.num : ℚ) := by
        rw [← NNRat.num_div_den m, hden]
        simp
      rw [hcast]
      exact_mod_cast hnum
    have hpos : (0 : ℚ) ≤ m := m.2
    apply decide_eq_true
    cases neg with
    | false => exact hm
    | true =>
      show -(m : ℚ) < 2 ^ 53
      linarith
  | inf neg => cases h
  | nan => cases h

theorem latency_safe {v : Value} {x : PyFloat} (h : positive (int number) v = some x) :
    isSafeInteger x = true := by
  obtain ⟨h, -⟩ := Option.filter_eq_some_iff.mp h
  exact (Option.filter_eq_some_iff.mp h).2

/-- From `2 ^ 53` on the schema refuses the target before JSON too. -/
theorem latency_of_large {x : PyFloat} (h : x.below (2 ^ 53) = false) :
    positive (int number) (.number x) = none := by
  rw [Option.eq_none_iff_forall_ne_some]
  intro y hy
  have hxy := Value.number.inj (ofNumbers_latency.passes _ y hy)
  rw [hxy, below_of_safe (latency_safe hy)] at h
  cases h

@[simp] theorem default_text (a s : JsString) :
    Zod.default text a (throughJson (textValue s)) = some s := text_textValue s

/-- An infinite limit is written as `null`, and refused. -/
theorem cost_through {s : RoutingSettings} (h : SoundSettings s) :
    nonnegative number (throughJson (.number s.maxCostUsd)) =
      if s.maxCostUsd ≠ .inf false then some (plus s.maxCostUsd) else none := by
  rcases h.cost with hinf | hpass
  · rw [if_neg (not_not.mpr hinf), hinf]
    rfl
  -- infinity never passes, so a limit that passes is finite
  · have hne : s.maxCostUsd ≠ .inf false := by
      intro hinf
      rw [hinf] at hpass
      cases hpass
    rw [if_pos hne, ofNumbers_cost.reads hpass]

/-- A target that is not a safe integer is refused. -/
theorem latency_through {s : RoutingSettings} (h : SoundSettings s) :
    positive (int number) (throughJson (.number s.latencyTargetMs)) =
      if s.latencyTargetMs.below (2 ^ 53) = true then some (plus s.latencyTargetMs)
      else none := by
  rcases h.latency with hlarge | hpass
  · rw [ofNumbers_latency.through, latency_of_large hlarge, hlarge]
    rfl
  · rw [if_pos (below_of_safe (latency_safe hpass)), ofNumbers_latency.reads hpass]

/-- Settings are refused, or come back up to the sign of a zero. -/
theorem settings_through {s : RoutingSettings} (h : SoundSettings s) :
    settingsSchema (throughJson (settingsValue s)) =
      if Fits s then some (mapSettings plus s) else none := by
  unfold settingsSchema settingsValue
  rw [throughJson_record, object]
  simp (disch := simp) only [field_throughJson]
  simp only [List.lookup_cons]
  simp [cost_through h, latency_through h, Fits]
  -- each of the two numbers is refused on its own
  by_cases hcost : s.maxCostUsd = .inf false
  · simp [hcost]
  · by_cases hlatency : s.latencyTargetMs.below (2 ^ 53) = true
    · simp [hcost, hlatency, mapSettings]
    · simp [hcost, hlatency]

/-- A decision card that the client has accepted. -/
structure SoundCard (c : DecisionCardData) : Prop where
  cost : Passes (nonnegative number) c.costEstimateUsd
  latency : Passes count c.latencyMs
  input : Passes count c.tokens.input
  output : Passes count c.tokens.output
  retries : Passes count c.retries
  failovers : ∀ x ∈ c.failoverCount, Passes count x

/-- Token counts come back. -/
theorem tokens_through {t : TokenUsage} (hinput : Passes count t.input)
    (houtput : Passes count t.output) :
    tokensSchema (throughJson (tokensValue t)) = some (mapTokens plus t) := by
  unfold tokensSchema tokensValue
  rw [throughJson_record, object]
  simp (disch := simp) only [field_throughJson]
  simp [List.lookup_cons, ofNumbers_count.reads hinput, ofNumbers_count.reads houtput, mapTokens]

/-- A card that has been accepted once is accepted again. -/
theorem card_through {c : DecisionCardData} (h : SoundCard c) :
    storedCardSchema (throughJson (cardValue c)) = some (mapCard plus c) := by
  unfold storedCardSchema cardValue
  rw [throughJson_record, object]
  simp (disch := simp) only [field_throughJson]
  simp [List.lookup_cons, ofNumbers_cost.reads h.cost, ofNumbers_count.reads h.latency,
    tokens_through h.input h.output, ofNumbers_count.reads h.retries,
    optional_number ofNumbers_count h.failovers, mapCard]

/-- An error whose status, if it has one, is an integer. -/
def SoundError (e : MessageError) : Prop := ∀ x ∈ e.status, Passes (int number) x

/-- So is an error. -/
theorem error_through {e : MessageError} (h : SoundError e) :
    messageErrorSchema (throughJson (errorValue e)) = some (mapError plus e) := by
  unfold messageErrorSchema errorValue
  rw [throughJson_record, object]
  simp (disch := simp) only [field_throughJson]
  simp [List.lookup_cons, optional_number ofNumbers_int h, mapError]

/-! ## Conversations -/

/-- A message made of settings, cards and errors that have some properties. -/
structure MadeOf (S : RoutingSettings → Prop) (C : DecisionCardData → Prop)
    (E : MessageError → Prop) (m : ChatMessage) : Prop where
  settings : ∀ s ∈ m.requestSettings, S s
  card : ∀ d ∈ m.decisionCard, C d
  error : ∀ e ∈ m.error, E e
  warning : ∀ e ∈ m.warning, E e

/-- The same for a conversation. -/
structure ConversationOf (S : RoutingSettings → Prop) (C : DecisionCardData → Prop)
    (E : MessageError → Prop) (c : Conversation) : Prop where
  settings : S c.settings
  messages : ∀ m ∈ c.messages, MadeOf S C E m

/-- A conversation that the page can hold. -/
abbrev Sound : Conversation → Prop := ConversationOf SoundSettings SoundCard SoundError

/-- All settings of the message pass. -/
def MessageFits (m : ChatMessage) : Prop := ∀ s ∈ m.requestSettings, Fits s

instance (m : ChatMessage) : Decidable (MessageFits m) :=
  inferInstanceAs (Decidable (∀ s ∈ m.requestSettings, Fits s))

def ConversationFits (c : Conversation) : Prop := Fits c.settings ∧ ∀ m ∈ c.messages, MessageFits m

instance (c : Conversation) : Decidable (ConversationFits c) :=
  inferInstanceAs (Decidable (_ ∧ _))

theorem optional_settings {m : ChatMessage} (h : ∀ s ∈ m.requestSettings, SoundSettings s) :
    Zod.optional settingsSchema (throughJson (orUndefined settingsValue m.requestSettings)) =
      if MessageFits m then some (m.requestSettings.map (mapSettings plus)) else none := by
  rw [optional_through (f := settingsValue) (fun s => record_defined _) fun s hs =>
    settings_through (h s hs)]
  by_cases hfits : MessageFits m
  · rw [if_pos hfits]
    unfold MessageFits at hfits
    cases hm : m.requestSettings with
    | none => rfl
    | some s => simp [hfits s hm]
  · rw [if_neg hfits]
    unfold MessageFits at hfits
    cases hm : m.requestSettings with
    | none => simp [hm] at hfits
    | some s =>
      have hs : ¬ Fits s := by simpa [hm] using hfits
      simp [hs]

theorem optional_card {o : Option DecisionCardData} (h : ∀ d ∈ o, SoundCard d) :
    Zod.optional storedCardSchema (throughJson (orUndefined cardValue o)) =
      some (o.map (mapCard plus)) := by
  rw [optional_through (f := cardValue) (fun d => record_defined _) fun d hd =>
    card_through (h d hd)]
  cases o <;> rfl

theorem optional_error {o : Option MessageError} (h : ∀ e ∈ o, SoundError e) :
    Zod.optional messageErrorSchema (throughJson (orUndefined errorValue o)) =
      some (o.map (mapError plus)) := by
  rw [optional_through (f := errorValue) (fun e => record_defined _) fun e he =>
    error_through (h e he)]
  cases o <;> rfl

/-- A message is refused when its settings are, and only then. -/
theorem message_through {m : ChatMessage} (h : MadeOf SoundSettings SoundCard SoundError m) :
    messageSchema (throughJson (messageValue m)) =
      if MessageFits m then some (mapMessage plus m) else none := by
  unfold messageSchema messageValue
  rw [throughJson_record, object]
  simp (disch := simp) only [field_throughJson]
  simp only [List.lookup_cons]
  simp [optional_settings h.settings, optional_card h.card, optional_error h.error,
    optional_error h.warning]
  by_cases hfits : MessageFits m
  · simp [hfits, mapMessage]
  · simp [hfits]

/-- The only things that are refused in a conversation are settings: its own, or a message's. -/
theorem conversation_through {c : Conversation} (h : Sound c)
    (hmode : c.storageMode = .persistent) :
    conversationSchema (throughJson (conversationValue c)) =
      if ConversationFits c then some (mapConversation plus c) else none := by
  have hmessages := array_throughJson (f := messageValue) (g := mapMessage plus)
    (fun m => by exact nofun) fun m hm => message_through (h.messages m hm)
  unfold conversationSchema conversationValue
  rw [throughJson_record, object]
  simp (disch := simp) only [field_throughJson]
  simp only [List.lookup_cons]
  simp [settings_through h.settings, hmessages, hmode]
  by_cases hfits : ConversationFits c
  -- the mode is written as the literal `persistent`
  · rw [if_pos hfits.1, if_pos hfits.2, if_pos hfits, mapConversation, hmode]
    rfl
  · rw [if_neg hfits]
    by_cases hsettings : Fits c.settings
    · rw [if_neg fun hmessages => hfits ⟨hsettings, hmessages⟩, if_pos hsettings]
      rfl
    · rw [if_neg hsettings]
      rfl

/-! ## Minus zero -/

/-- The numbers that `plus` leaves alone. -/
def NoMinusZero (numbers : List PyFloat) : Prop := ∀ x ∈ numbers, x ≠ .finite true 0

instance (numbers : List PyFloat) : Decidable (NoMinusZero numbers) :=
  inferInstanceAs (Decidable (∀ x ∈ numbers, _))

def settingsNumbers (s : RoutingSettings) : List PyFloat := [s.maxCostUsd, s.latencyTargetMs]

def cardNumbers (c : DecisionCardData) : List PyFloat :=
  [c.costEstimateUsd, c.latencyMs, c.tokens.input, c.tokens.output, c.retries] ++
    c.failoverCount.toList

def errorNumbers (e : MessageError) : List PyFloat := e.status.toList

theorem map_eq_self {α : Type} {f : α → α} {l : List α} : l.map f = l ↔ ∀ a ∈ l, f a = a := by
  have h := List.map_inj_left (l := l) (f := f) (g := id)
  rwa [List.map_id] at h

theorem map_eq_self_iff {α : Type} {f : α → α} {o : Option α} : o.map f = o ↔ ∀ a ∈ o, f a = a := by
  cases o with
  | none => simp
  | some a => simp

/-- Settings come back as they were unless one of their numbers is minus zero. -/
theorem mapSettings_eq_iff {s : RoutingSettings} :
    mapSettings plus s = s ↔ NoMinusZero (settingsNumbers s) := by
  cases s
  simp [mapSettings, NoMinusZero, settingsNumbers, plus_eq_iff]

theorem mapCard_eq_iff {c : DecisionCardData} :
    mapCard plus c = c ↔ NoMinusZero (cardNumbers c) := by
  obtain ⟨_, _, _, _, _, tokens, _, _, _, _, _, failovers, _, _, _⟩ := c
  cases tokens
  cases failovers with
  | none => simp [mapCard, mapTokens, NoMinusZero, cardNumbers, plus_eq_iff, and_assoc]
  | some x => simp [mapCard, mapTokens, NoMinusZero, cardNumbers, plus_eq_iff, and_assoc]

theorem mapError_eq_iff {e : MessageError} :
    mapError plus e = e ↔ NoMinusZero (errorNumbers e) := by
  obtain ⟨_, _, status, _⟩ := e
  cases status with
  | none => simp [mapError, NoMinusZero, errorNumbers]
  | some x => simp [mapError, NoMinusZero, errorNumbers, plus_eq_iff]

/-- No number of the message is minus zero. -/
abbrev PlusMessage : ChatMessage → Prop :=
  MadeOf (fun s => NoMinusZero (settingsNumbers s)) (fun d => NoMinusZero (cardNumbers d))
    fun e => NoMinusZero (errorNumbers e)

abbrev PlusConversation : Conversation → Prop :=
  ConversationOf (fun s => NoMinusZero (settingsNumbers s)) (fun d => NoMinusZero (cardNumbers d))
    fun e => NoMinusZero (errorNumbers e)

theorem mapMessage_eq_iff {m : ChatMessage} : mapMessage plus m = m ↔ PlusMessage m := by
  have hparts : mapMessage plus m = m ↔
      m.requestSettings.map (mapSettings plus) = m.requestSettings ∧
        m.decisionCard.map (mapCard plus) = m.decisionCard ∧
        m.error.map (mapError plus) = m.error ∧ m.warning.map (mapError plus) = m.warning := by
    cases m
    simp [mapMessage]
  rw [hparts]
  simp only [map_eq_self_iff, mapSettings_eq_iff, mapCard_eq_iff, mapError_eq_iff]
  exact ⟨fun ⟨hs, hd, he, hw⟩ => ⟨hs, hd, he, hw⟩,
    fun h => ⟨h.settings, h.card, h.error, h.warning⟩⟩

/-- A conversation comes back as it was unless it holds a minus zero somewhere. -/
theorem mapConversation_eq_iff {c : Conversation} :
    mapConversation plus c = c ↔ PlusConversation c := by
  have hparts : mapConversation plus c = c ↔
      mapSettings plus c.settings = c.settings ∧ c.messages.map (mapMessage plus) = c.messages := by
    cases c
    simp [mapConversation]
  rw [hparts, mapSettings_eq_iff, map_eq_self]
  simp only [mapMessage_eq_iff]
  exact ⟨fun ⟨hs, hm⟩ => ⟨hs, hm⟩, fun h => ⟨h.settings, h.messages⟩⟩

/-! ## The reload -/

/-- A conversation that is restored. -/
def restored (c : Conversation) : Conversation :=
  { c with messages := c.messages.map restoredMessage }

section Restored
variable {S : RoutingSettings → Prop} {C : DecisionCardData → Prop} {E : MessageError → Prop}

/-- Cancelling a message that was being sent changes its status only. -/
theorem madeOf_restored {m : ChatMessage} : MadeOf S C E (restoredMessage m) ↔ MadeOf S C E m := by
  unfold restoredMessage
  split
  · exact ⟨fun ⟨hs, hd, he, hw⟩ => ⟨hs, hd, he, hw⟩, fun ⟨hs, hd, he, hw⟩ => ⟨hs, hd, he, hw⟩⟩
  · rfl

theorem conversationOf_restored {c : Conversation} :
    ConversationOf S C E (restored c) ↔ ConversationOf S C E c := by
  have hmessages : (∀ m ∈ (restored c).messages, MadeOf S C E m) ↔
      ∀ m ∈ c.messages, MadeOf S C E m := by
    simp [restored, madeOf_restored]
  exact ⟨fun ⟨hs, hm⟩ => ⟨hs, hmessages.mp hm⟩, fun ⟨hs, hm⟩ => ⟨hs, hmessages.mpr hm⟩⟩

end Restored

/-- The status and the numbers are changed apart from each other. -/
theorem restored_map (f : PyFloat → PyFloat) (c : Conversation) :
    restored (mapConversation f c) = mapConversation f (restored c) := by
  have hmessage (m : ChatMessage) :
      restoredMessage (mapMessage f m) = mapMessage f (restoredMessage m) := by
    have hstatus : (mapMessage f m).status = m.status := rfl
    unfold restoredMessage
    rw [hstatus]
    by_cases hm : m.status = .sending
    · rw [if_pos hm, if_pos hm]
      rfl
    · rw [if_neg hm, if_neg hm]
  simp [restored, mapConversation, hmessage]

/-- What a page finds that is loaded after a state was stored. -/
def reloaded (s : ConversationState) : ConversationState :=
  restoreState (readStored (throughJson (storedValue s)))

/-- What it should find. -/
def kept (s : ConversationState) : ConversationState :=
  let conversations := s.conversations.filter (·.storageMode = .persistent)
  { conversations := conversations.map fun c =>
      { c with
        messages := c.messages.map fun m =>
          if m.status = .sending then { m with status := .cancelled } else m }
    activeConversationId :=
      if ∃ c ∈ conversations, s.activeConversationId = some c.id then s.activeConversationId
      else conversations.head?.map (·.id)
    hydrated := true }

/-- The reload finds what it should. -/
def RoundTrip (s : ConversationState) : Prop := reloaded s = kept s

instance (s : ConversationState) : Decidable (RoundTrip s) := inferInstanceAs (Decidable (_ = _))

/-- Settings that come back as they were. -/
def StorableSettings (s : RoutingSettings) : Prop := Fits s ∧ NoMinusZero (settingsNumbers s)

/-- A state whose persistent conversations all come back as they were. -/
def Storable (s : ConversationState) : Prop :=
  ∀ c ∈ s.conversations, c.storageMode = .persistent →
    ConversationOf StorableSettings (fun d => NoMinusZero (cardNumbers d))
      (fun e => NoMinusZero (errorNumbers e)) c

section Reload
variable {s : ConversationState}

/-- Only persistent conversations are stored. -/
theorem mem_persistState {c : Conversation} :
    c ∈ persistState s ↔ c ∈ s.conversations ∧ c.storageMode = .persistent := by
  simp [persistState]

/-- A state of the current version is not migrated. -/
theorem migrate_stored : migrate (throughJson (storedValue s)) = throughJson (storedValue s) := by
  unfold storedValue
  rw [throughJson_record]
  -- only the version is looked at
  generalize hfields : fieldsThroughJson _ = fields
  have hversion : Ecma.get fields (str "schemaVersion") = .number (.ofRat 1) := by
    have hfield := @field_throughJson Value [("schemaVersion", .number (.ofRat 1)),
      ("activeConversationId", orNull identValue (activeStored s)),
      ("conversations", .array ((persistState s).map conversationValue))] (by simp)
      "schemaVersion" some
    rw [hfields] at hfield
    exact (Option.some.inj hfield).trans (throughJson_ofRat 1)
  unfold migrate
  simp only [hversion]
  split
  · next version conversations hnumber _ =>
    rw [← Value.number.inj hnumber, PyFloat.eq_ofRat]
    rfl
  · rfl

theorem persistent_map : ∀ c ∈ (persistState s).map (mapConversation plus),
    c.storageMode = .persistent := by
  intro c hc
  obtain ⟨c₀, hc₀, rfl⟩ := List.mem_map.mp hc
  exact (mem_persistState.mp hc₀).2

/-- Either all persistent conversations are read, or none. -/
theorem readStored_through (h : ∀ c ∈ persistState s, Sound c) :
    readStored (throughJson (storedValue s)) =
      if ∀ c ∈ persistState s, ConversationFits c then
        some ⟨activeStored s, (persistState s).map (mapConversation plus), persistent_map⟩
      else none := by
  have hconversations := array_throughJson (f := conversationValue) (g := mapConversation plus)
    (fun c => by exact nofun) fun c hc => conversation_through (h c hc) (mem_persistState.mp hc).2
  have hliteral : literal 1 (throughJson (.number (.ofRat 1))) = some () := by
    rw [throughJson_ofRat]
    simp [Zod.literal, PyFloat.eq_ofRat]
  rw [readStored, migrate_stored]
  unfold persistedSchema storedValue
  rw [throughJson_record, object]
  simp (disch := simp) only [field_throughJson]
  simp only [List.lookup_cons]
  by_cases hfits : ∀ c ∈ persistState s, ConversationFits c
  · rw [if_pos hfits] at hconversations ⊢
    simp [hliteral, hconversations]
    intro c hc
    exact (mem_persistState.mp hc).2
  · rw [if_neg hfits] at hconversations ⊢
    simp [hliteral, hconversations]

/-- The id that is stored is found again. -/
theorem any_activeStored {l : List Conversation}
    (hids : l.map (·.id) = (persistState s).map (·.id)) :
    (if l.any fun c => some c.id = activeStored s then activeStored s else l.head?.map (·.id)) =
      activeStored s := by
  have hhead : l.head?.map (·.id) = (persistState s).head?.map (·.id) := by
    rw [← List.head?_map, ← List.head?_map, hids]
  have hany (o : Option String) : (l.any fun c => some c.id = o) =
      (persistState s).any fun c => some c.id = o := by
    have h := congrArg (List.any · fun id => some id = o) hids
    simpa [List.any_map, Function.comp_def] using h
  rw [hany, hhead]
  by_cases hactive : (persistState s).any fun c => some c.id = s.activeConversationId
  · have hstored : activeStored s = s.activeConversationId := if_pos hactive
    rw [hstored, if_pos hactive]
  · have hstored : activeStored s = (persistState s).head?.map (·.id) := if_neg hactive
    rw [hstored, ite_self]

/-- What should be found, as the code's own functions make it. -/
theorem kept_eq : kept s = ⟨(persistState s).map restored, activeStored s, true⟩ := by
  have hactive : (∃ c ∈ persistState s, s.activeConversationId = some c.id) ↔
      ((persistState s).any fun c => some c.id = s.activeConversationId) = true := by
    rw [List.any_eq_true]
    exact exists_congr fun c => and_congr_right fun _ => eq_comm.trans decide_eq_true_iff.symm
  have hid : activeStored s =
      if ∃ c ∈ persistState s, s.activeConversationId = some c.id then s.activeConversationId
      else (persistState s).head?.map (·.id) := by
    simp only [hactive]
    rfl
  rw [hid]
  rfl

/-- **What a reload finds.** -/
theorem reloaded_eq (h : ∀ c ∈ persistState s, Sound c) :
    reloaded s =
      if ∀ c ∈ persistState s, ConversationFits c then
        ⟨(persistState s).map fun c => mapConversation plus (restored c), activeStored s, true⟩
      else ⟨[], none, true⟩ := by
  rw [reloaded, readStored_through h]
  by_cases hfits : ∀ c ∈ persistState s, ConversationFits c
  · rw [if_pos hfits, if_pos hfits]
    have hrestored : ((persistState s).map (mapConversation plus)).map restored =
        (persistState s).map fun c => mapConversation plus (restored c) := by
      rw [List.map_map]
      exact List.map_congr_left fun c _ => restored_map plus c
    have hids : (((persistState s).map (mapConversation plus)).map restored).map (·.id) =
        (persistState s).map (·.id) := by
      rw [List.map_map, List.map_map]
      rfl
    have hactive := any_activeStored hids
    rw [← hrestored]
    exact congrArg (ConversationState.mk _ · true) hactive
  · rw [if_neg hfits, if_neg hfits]
    rfl

/-- A storable state is not refused. -/
theorem fits_of_storable (h : Storable s) : ∀ c ∈ persistState s, ConversationFits c := by
  intro c hc
  obtain ⟨hmem, hmode⟩ := mem_persistState.mp hc
  have hc := h c hmem hmode
  exact ⟨hc.settings.1, fun m hm settings hs => ((hc.messages m hm).settings settings hs).1⟩

/-- A state is storable when the schemas accept it and no zero loses its sign. -/
theorem storable_iff : Storable s ↔
    ∀ c ∈ persistState s, ConversationFits c ∧ PlusConversation c := by
  constructor
  · intro h c hc
    obtain ⟨hmem, hmode⟩ := mem_persistState.mp hc
    refine ⟨fits_of_storable h c hc, (h c hmem hmode).settings.2, fun m hm => ?_⟩
    have hparts := (h c hmem hmode).messages m hm
    exact ⟨fun settings hs => (hparts.settings settings hs).2, hparts.card, hparts.error,
      hparts.warning⟩
  · intro h c hmem hmode
    obtain ⟨hfits, hplus⟩ := h c (mem_persistState.mpr ⟨hmem, hmode⟩)
    refine ⟨⟨hfits.1, hplus.settings⟩, fun m hm => ?_⟩
    have hparts := hplus.messages m hm
    exact ⟨fun settings hs => ⟨hfits.2 m hm settings hs, hparts.settings settings hs⟩, hparts.card,
      hparts.error, hparts.warning⟩

/-- **What comes back is what was kept, if and only if the state is storable.** -/
theorem roundTrip_iff (h : ∀ c ∈ persistState s, Sound c) : RoundTrip s ↔ Storable s := by
  rw [RoundTrip, reloaded_eq h, kept_eq, storable_iff]
  by_cases hfits : ∀ c ∈ persistState s, ConversationFits c
  · have hplus : ((persistState s).map fun c => mapConversation plus (restored c)) =
        (persistState s).map restored ↔ ∀ c ∈ persistState s, PlusConversation c := by
      rw [List.map_inj_left]
      simp only [mapConversation_eq_iff, conversationOf_restored]
    rw [if_pos hfits, ConversationState.mk.injEq, hplus]
    exact ⟨fun hall c hc => ⟨hfits c hc, hall.1 c hc⟩,
      fun hall => ⟨fun c hc => (hall c hc).2, rfl, rfl⟩⟩
  · rw [if_neg hfits]
    -- one conversation is refused, and with it all that should be kept
    constructor
    · intro hempty
      have hnone := congrArg ConversationState.conversations hempty
      refine absurd (fun c hc => ?_) hfits
      rw [List.map_eq_nil_iff.mp hnone.symm] at hc
      cases hc
    · exact fun hall => absurd (fun c hc => (hall c hc).1) hfits

end Reload

end PolyGate.Web.Storage
