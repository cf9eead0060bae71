import PolyGate.Web.StorageRoundTrip

/-!
# `Web/StoredRuns.lean` — what the page can come to hold, and store

The numbers of a conversation come from three places: the two inputs of the routing panel, the
decision cards that the client accepts, and the statuses of answers. A property that all of them
have is one of every conversation in every run (`run_keeps`). The schemas of cards and errors are
the stored ones, so only the settings can be refused later: `round_trips_iff`.
-/

namespace PolyGate.Web.Storage

open Lib Ecma Zod

/-- A run of the page: its events, each with the time it happens at. -/
abbrev PageRun : Page → List (Page × (JsString × UiEvent) × Page) → Page → Prop :=
  Run fun p l p' => Web.step p l.1 l.2 = some p'

/-! ## Parts that are kept -/

section Keeps
variable {S : RoutingSettings → Prop} {C : DecisionCardData → Prop} {E : MessageError → Prop}
  {s : ConversationState} {p p' : Page} {now : JsString}

/-- What an action brings has the properties. -/
def ActionOf (S : RoutingSettings → Prop) (C : DecisionCardData → Prop) (E : MessageError → Prop) :
    ConversationAction → Prop
  | .createConversation conversation => ConversationOf S C E conversation
  | .updateSettings _ patch => ∀ settings, S settings → S (patch.apply settings)
  | .appendUserMessage _ user assistant => MadeOf S C E user ∧ MadeOf S C E assistant
  | .startRequest _ _ settings | .retryRequest _ _ settings | .regenerateResponse _ _ settings =>
    S settings
  | .completeRequest _ _ _ card warning => (∀ d ∈ card, C d) ∧ ∀ e ∈ warning, E e
  | .failRequest _ _ error => E error
  | _ => True

/-- What an event brings has them. -/
def EventOf (S : RoutingSettings → Prop) (C : DecisionCardData → Prop) (E : MessageError → Prop) :
    UiEvent → Prop
  | .updateSettings patch => ∀ settings, S settings → S (patch.apply settings)
  | .loadFixture _ card _ _ => ∀ d ∈ card, C d
  | .complete _ _ card warning => (∀ d ∈ card, C d) ∧ ∀ e ∈ warning, E e
  | .fail _ error => E error
  | _ => True

/-- All conversations of a state are made of what has the properties. -/
def StateOf (S : RoutingSettings → Prop) (C : DecisionCardData → Prop) (E : MessageError → Prop)
    (s : ConversationState) : Prop := ∀ c ∈ s.conversations, ConversationOf S C E c

theorem StateOf.withConversation (h : StateOf S C E s) {id : String}
    {update : Conversation → Conversation}
    (hupdate : ∀ c, ConversationOf S C E c → ConversationOf S C E (update c)) :
    StateOf S C E (withConversation s id update) := by
  intro c hc
  obtain ⟨c₀, hc₀, rfl⟩ := List.mem_map.mp hc
  split
  · exact hupdate c₀ (h c₀ hc₀)
  · exact h c₀ hc₀

theorem ConversationOf.updateMessage {c : Conversation} (h : ConversationOf S C E c)
    {messageId : String} {update : ChatMessage → ChatMessage}
    (hupdate : ∀ m, MadeOf S C E m → MadeOf S C E (update m)) :
    ConversationOf S C E (updateMessage now c messageId update) := by
  refine ⟨h.settings, fun m hm => ?_⟩
  obtain ⟨m₀, hm₀, rfl⟩ := List.mem_map.mp hm
  split
  · exact hupdate m₀ (h.messages m₀ hm₀)
  · exact h.messages m₀ hm₀

/-- A message of a conversation is updated. -/
theorem StateOf.updateMessage (h : StateOf S C E s) {id messageId : String}
    {update : ChatMessage → ChatMessage}
    (hupdate : ∀ m, MadeOf S C E m → MadeOf S C E (update m)) :
    StateOf S C E (Web.withConversation s id fun c =>
      Web.updateMessage now c messageId update) :=
  h.withConversation fun _ hc => hc.updateMessage hupdate

theorem madeOf_requested {settings : RoutingSettings} (hsettings : S settings) (m : ChatMessage) :
    MadeOf S C E (requested settings m) := by
  constructor
  · intro s hs
    obtain rfl := Option.some.inj hs
    exact hsettings
  · exact fun _ hd => nomatch hd
  · exact fun _ he => nomatch he
  · exact fun _ he => nomatch he

/-- Whatever the parts of a state have, the reducer keeps, if the action brings only parts that have
it. -/
theorem StateOf.reducer (h : StateOf S C E s) {action : ConversationAction}
    (haction : ActionOf S C E action) : StateOf S C E (conversationReducer now s action) := by
  cases action with
  | createConversation conversation => exact List.forall_mem_cons.mpr ⟨haction, h⟩
  | selectConversation conversationId =>
    simp only [conversationReducer]
    split
    · exact h
    · exact h
  | renameConversation conversationId title =>
    simp only [conversationReducer]
    split
    · exact h
    · exact h.withConversation fun c hc => ⟨hc.settings, hc.messages⟩
  | deleteConversation conversationId => exact fun c hc => h c (List.mem_filter.mp hc).1
  | updateSettings conversationId patch =>
    exact h.withConversation fun c hc => ⟨haction c.settings hc.settings, hc.messages⟩
  | setStorageMode conversationId mode =>
    exact h.withConversation fun c hc => ⟨hc.settings, hc.messages⟩
  | appendUserMessage conversationId user assistant =>
    refine h.withConversation fun c hc => ⟨hc.settings, fun m hm => ?_⟩
    rcases List.mem_append.mp hm with hm | hm
    · exact hc.messages m hm
    · rcases List.mem_pair.mp hm with rfl | rfl
      · exact haction.1
      · exact haction.2
  | startRequest conversationId messageId settings
  | retryRequest conversationId messageId settings
  | regenerateResponse conversationId messageId settings =>
    exact h.updateMessage fun m _ => madeOf_requested haction m
  | appendResponseDelta conversationId messageId delta =>
    exact h.updateMessage fun m hm => ⟨hm.settings, hm.card, hm.error, hm.warning⟩
  | completeRequest conversationId messageId content card warning =>
    exact h.updateMessage fun m hm => ⟨hm.settings, haction.1, fun _ he => (nomatch he), haction.2⟩
  | failRequest conversationId messageId error =>
    refine h.updateMessage fun m hm => ⟨hm.settings, hm.card, fun e he => ?_, hm.warning⟩
    obtain rfl := Option.some.inj he
    exact haction
  | cancelRequest conversationId messageId =>
    exact h.updateMessage fun m hm => ⟨hm.settings, hm.card, fun _ he => (nomatch he), hm.warning⟩
  | clearAllConversations => exact fun c hc => absurd hc List.not_mem_nil

theorem madeOf_userMessage (id : String) (content : JsString) :
    MadeOf S C E (userMessage id content now) :=
  ⟨fun _ hs => (nomatch hs), fun _ hd => (nomatch hd), fun _ he => (nomatch he),
    fun _ he => (nomatch he)⟩

theorem madeOf_assistantMessage {settings : RoutingSettings} {card : Option DecisionCardData}
    (hsettings : S settings) (hcard : ∀ d ∈ card, C d) (id parentId : String) (content : JsString)
    (status : MessageStatus) :
    MadeOf S C E (assistantMessage id parentId settings content now status card) := by
  refine ⟨fun s hs => ?_, hcard, fun _ he => (nomatch he), fun _ he => (nomatch he)⟩
  obtain rfl := Option.some.inj hs
  exact hsettings

/-- A request is launched with the settings of its conversation. -/
theorem launched_of {action : ConversationAction} {r : Request} (h : StateOf S C E p.state)
    {e : UiEvent} (hlaunch : launch p now e = some (action, r)) : ActionOf S C E action := by
  cases e with
  | sendMessage content userId assistantId =>
    obtain ⟨c, hc, -, rfl, -⟩ := sendMessage_eq_some hlaunch
    exact ⟨madeOf_userMessage _ _,
      madeOf_assistantMessage (h c hc).settings (fun _ hd => (nomatch hd)) _ _ _ _⟩
  | retryRequest messageId =>
    obtain ⟨c, hfind, hlaunch⟩ := Option.bind_eq_some_iff.mp hlaunch
    obtain ⟨m, -, hlaunch⟩ := Option.bind_eq_some_iff.mp hlaunch
    obtain ⟨_, -, hlaunch⟩ := Option.bind_eq_some_iff.mp hlaunch
    obtain ⟨rfl, -⟩ := Prod.mk.inj (Option.some.inj hlaunch)
    exact (h c (List.mem_of_find?_eq_some hfind)).settings
  | regenerateLast =>
    obtain ⟨c, hactive, hlaunch⟩ := Option.bind_eq_some_iff.mp hlaunch
    obtain ⟨⟨before, m⟩, -, hlaunch⟩ := Option.bind_eq_some_iff.mp hlaunch
    obtain ⟨_, -, hlaunch⟩ := Option.bind_eq_some_iff.mp hlaunch
    obtain ⟨rfl, -⟩ := Prod.mk.inj (Option.some.inj hlaunch)
    exact (h c (mem_of_active hactive)).settings
  | _ => cases hlaunch

theorem settle_keeps {n : Nat} {action : Request → ConversationAction}
    (h : StateOf S C E p.state) (hsettle : settle p now n action = some p')
    (haction : ∀ r, ActionOf S C E (action r)) : StateOf S C E p'.state := by
  obtain ⟨r, -, hp'⟩ := Option.bind_eq_some_iff.mp hsettle
  obtain rfl := Option.some.inj hp'
  exact h.reducer (haction r)

/-- So does every event of the page. -/
theorem step_keeps (hdefault : S defaultSettings) {e : UiEvent} (h : StateOf S C E p.state)
    (he : EventOf S C E e) (hstep : Web.step p now e = some p') : StateOf S C E p'.state := by
  cases e with
  | createConversation id =>
    obtain rfl := Option.some.inj hstep
    exact h.reducer ⟨hdefault, fun m hm => absurd hm List.not_mem_nil⟩
  | selectConversation _ | renameConversation _ _ | deleteConversation _ | clearAll =>
    obtain rfl := Option.some.inj hstep
    exact h.reducer trivial
  | updateSettings patch =>
    obtain ⟨c, -, rfl⟩ := Option.map_eq_some_iff.mp hstep
    exact h.reducer he
  | setStorageMode mode =>
    obtain ⟨c, -, rfl⟩ := Option.map_eq_some_iff.mp hstep
    exact h.reducer trivial
  | sendMessage content userId assistantId =>
    obtain ⟨⟨action, r⟩, hlaunch, rfl⟩ := Option.map_eq_some_iff.mp hstep
    have hlaunch : launch p now (.sendMessage content userId assistantId) = some (action, r) :=
      hlaunch
    exact h.reducer (launched_of h hlaunch)
  | retryRequest messageId =>
    obtain ⟨⟨action, r⟩, hlaunch, rfl⟩ := Option.map_eq_some_iff.mp hstep
    have hlaunch : launch p now (.retryRequest messageId) = some (action, r) := hlaunch
    exact h.reducer (launched_of h hlaunch)
  | regenerateLast =>
    obtain ⟨⟨action, r⟩, hlaunch, rfl⟩ := Option.map_eq_some_iff.mp hstep
    have hlaunch : launch p now .regenerateLast = some (action, r) := hlaunch
    exact h.reducer (launched_of h hlaunch)
  | loadFixture answer card userId assistantId =>
    obtain ⟨action, hload, rfl⟩ := Option.map_eq_some_iff.mp hstep
    obtain ⟨c, hactive, hload⟩ := Option.bind_eq_some_iff.mp hload
    obtain ⟨_, -, hload⟩ := Option.bind_eq_some_iff.mp hload
    obtain rfl := Option.some.inj hload
    exact h.reducer ⟨madeOf_userMessage _ _,
      madeOf_assistantMessage (h c (mem_of_active hactive)).settings he _ _ _ _⟩
  | delta n delta =>
    obtain ⟨r, -, hp'⟩ := Option.bind_eq_some_iff.mp hstep
    obtain rfl := Option.some.inj hp'
    exact h.reducer trivial
  | complete n answer card warning => exact settle_keeps h hstep fun _ => he
  | fail n error => exact settle_keeps h hstep fun _ => he
  | cancelled n => exact settle_keeps h hstep fun _ => trivial

/-- What holds of all that is brought to the page holds of what it has. -/
theorem run_keeps {ts : List (Page × (JsString × UiEvent) × Page)} (hdefault : S defaultSettings)
    (hrun : PageRun p ts p')
    (h : StateOf S C E p.state) (hevents : ∀ t ∈ ts, EventOf S C E t.2.1.2) :
    StateOf S C E p'.state :=
  (hrun.restrict (P := fun _ l => EventOf S C E l.2) hevents).invariant
    (I := fun p => StateOf S C E p.state) h
    fun _ _ _ h hstep => step_keeps hdefault h hstep.1 hstep.2

end Keeps

/-! ## The inputs of the routing panel -/

/-- A rational number is never written as minus zero. -/
theorem ofRat_ne_minusZero (q : ℚ) : PyFloat.ofRat q ≠ .finite true 0 := by
  intro h
  have hneg := (PyFloat.finite.inj h).1
  have hzero := (PyFloat.finite.inj h).2
  have hvalue := PyFloat.value_ofRat q
  rw [hneg, hzero] at hvalue
  have hq : q = 0 := by simpa [PyFloat.value] using hvalue.symm
  rw [hq] at hneg
  cases hneg

theorem ofRat_of_pos {neg : Bool} {m : ℚ≥0} (h : 0 < PyFloat.value neg m) :
    PyFloat.finite neg m = .ofRat (PyFloat.value neg m) := by
  have hm : (0 : ℚ) ≤ m := m.2
  cases neg with
  | true =>
    have hneg : 0 < -(m : ℚ) := h
    linarith
  | false =>
    have hnnabs : (m : ℚ).nnabs = m := NNRat.coe_injective (by simp)
    simp [PyFloat.ofRat, PyFloat.value, hnnabs]

/-- `Math.max(q, x)` for a bound that is not negative. -/
theorem mathMax_ofRat {q : ℚ} (hq : 0 ≤ q) (neg : Bool) (m : ℚ≥0) :
    mathMax (.ofRat q) (.finite neg m) =
      if q < PyFloat.value neg m then .ofRat (PyFloat.value neg m) else .ofRat q := by
  have hvalue := PyFloat.value_ofRat q
  rw [PyFloat.ofRat, mathMax, hvalue]
  by_cases hlt : q < PyFloat.value neg m
  · rw [if_pos (Or.inl hlt), if_pos hlt, ofRat_of_pos (lt_of_le_of_lt hq hlt)]
  · have hnot : ¬ (q < PyFloat.value neg m ∨
        q = PyFloat.value neg m ∧ decide (q < 0) = true) := by
      rintro (h | ⟨-, h⟩)
      · exact hlt h
      · exact absurd (of_decide_eq_true h) (not_lt.mpr hq)
    rw [if_neg hnot, if_neg hlt]

theorem mathMax_ofRats {q : ℚ} (hq : 0 ≤ q) (r : ℚ) :
    mathMax (.ofRat q) (.ofRat r) = if q < r then .ofRat r else .ofRat q := by
  have h := mathMax_ofRat hq (decide (r < 0)) r.nnabs
  rwa [PyFloat.value_ofRat] at h

/-- What the cost input makes is not negative, but it can be infinite. -/
theorem maxCostUsd_cases {x : PyFloat} (h : x ≠ .nan) :
    maxCostUsd x = .inf false ∨ ∃ q : ℚ, 0 ≤ q ∧ maxCostUsd x = .ofRat q := by
  cases x with
  | nan => exact absurd rfl h
  | inf neg =>
    cases neg with
    | false => exact Or.inl rfl
    | true => exact Or.inr ⟨0, le_rfl, rfl⟩
  | finite neg m =>
    right
    rw [maxCostUsd, mathMax_ofRat le_rfl]
    split
    · next hpos => exact ⟨_, hpos.le, rfl⟩
    · exact ⟨0, le_rfl, rfl⟩

/-- What the latency input makes is a positive integer or infinite. -/
theorem latencyTargetMs_cases {x : PyFloat} (h : x ≠ .nan) :
    latencyTargetMs x = .inf false ∨ ∃ n : ℤ, 1 ≤ n ∧ latencyTargetMs x = .ofRat n := by
  have hone : (PyFloat.ofRat 1) = .ofRat ((1 : ℤ) : ℚ) := by rw [Int.cast_one]
  cases x with
  | nan => exact absurd rfl h
  | inf neg =>
    cases neg with
    | false => exact Or.inl rfl
    | true => exact Or.inr ⟨1, le_rfl, hone⟩
  | finite neg m =>
    right
    rw [latencyTargetMs, mathRound]
    by_cases hzero : ⌊PyFloat.value neg m + 1 / 2⌋ = 0
    · rw [if_pos hzero, mathMax_ofRat zero_le_one, if_neg (by cases neg <;> simp [PyFloat.value])]
      exact ⟨1, le_rfl, hone⟩
    · rw [if_neg hzero, mathMax_ofRats zero_le_one]
      split
      · next hlarge => exact ⟨_, by exact_mod_cast hlarge.le, rfl⟩
      · exact ⟨1, le_rfl, hone⟩

theorem passes_cost {q : ℚ} (hq : 0 ≤ q) : Passes (nonnegative number) (.ofRat q) := by
  have hvalue : (PyFloat.ofRat q).atLeast 0 = true := by
    simp [PyFloat.ofRat, PyFloat.atLeast, hq]
  show (some (PyFloat.ofRat q)).filter (fun x => x.atLeast 0) = some (PyFloat.ofRat q)
  exact Option.filter_eq_some_iff.mpr ⟨rfl, hvalue⟩

theorem passes_int {n : ℕ} (h : n < 2 ^ 53) : Passes (int number) (.ofRat (n : ℚ)) := by
  have hnnabs : (n : ℚ).nnabs = (n : ℚ≥0) := NNRat.coe_injective (by simp)
  have hsafe : isSafeInteger (.ofRat (n : ℚ)) = true := by
    rw [PyFloat.ofRat, hnnabs]
    exact decide_eq_true ⟨NNRat.den_natCast n, by rwa [NNRat.num_natCast]⟩
  show (some (PyFloat.ofRat (n : ℚ))).filter _ = some (PyFloat.ofRat (n : ℚ))
  exact Option.filter_eq_some_iff.mpr ⟨rfl, hsafe⟩

theorem passes_latency {n : ℕ} (hn : 1 ≤ n) (h : n < 2 ^ 53) :
    Passes (positive (int number)) (.ofRat (n : ℚ)) := by
  have habove : (PyFloat.ofRat (n : ℚ)).above 0 = true := by
    simp [PyFloat.ofRat, PyFloat.above]
    omega
  show (int number (.number (.ofRat (n : ℚ)))).filter _ = some (PyFloat.ofRat (n : ℚ))
  exact Option.filter_eq_some_iff.mpr ⟨passes_int h, habove⟩

theorem below_ofRat (q b : ℚ) : (PyFloat.ofRat q).below b = decide (q < b) := by
  simp [PyFloat.ofRat, PyFloat.below]

/-- What the latency input makes is too large, or passes and comes back as it was. -/
theorem latencyTargetMs_sound {x : PyFloat} (h : x ≠ .nan) :
    (latencyTargetMs x).below (2 ^ 53) = false ∨
      Passes (positive (int number)) (latencyTargetMs x) := by
  rcases latencyTargetMs_cases h with hinf | ⟨n, hn, heq⟩
  · rw [hinf]
    exact Or.inl rfl
  · obtain ⟨k, rfl⟩ := Int.eq_ofNat_of_zero_le (zero_le_one.trans hn)
    rw [heq, Int.cast_natCast, below_ofRat]
    by_cases hlt : k < 2 ^ 53
    · exact Or.inr (passes_latency (by exact_mod_cast hn) hlt)
    · left
      have hlarge : ¬ ((k : ℚ) < 2 ^ 53) := by exact_mod_cast hlt
      exact decide_eq_false hlarge

/-- The budget that the routing panel stores is infinite or accepted. -/
theorem maxCostUsd_sound {x : PyFloat} (h : x ≠ .nan) :
    maxCostUsd x = .inf false ∨ Passes (nonnegative number) (maxCostUsd x) := by
  rcases maxCostUsd_cases h with hinf | ⟨q, hq, heq⟩
  · exact Or.inl hinf
  · rw [heq]
    exact Or.inr (passes_cost hq)

/-- And never minus zero, as `Math.max(0, -0)` is zero. -/
theorem maxCostUsd_plus {x : PyFloat} (h : x ≠ .nan) : maxCostUsd x ≠ .finite true 0 := by
  rcases maxCostUsd_cases h with hinf | ⟨q, -, heq⟩
  · rw [hinf]
    exact nofun
  · rw [heq]
    exact ofRat_ne_minusZero q

/-- Nor is the latency target. -/
theorem latencyTargetMs_plus {x : PyFloat} (h : x ≠ .nan) :
    latencyTargetMs x ≠ .finite true 0 := by
  rcases latencyTargetMs_cases h with hinf | ⟨n, -, heq⟩
  · rw [hinf]
    exact nofun
  · rw [heq]
    exact ofRat_ne_minusZero n

/-! ## What the schemas let pass -/

theorem tokens_sound {v : Value} {t : TokenUsage} (h : tokensSchema v = some t) :
    Passes count t.input ∧ Passes count t.output := by
  unfold tokensSchema object at h
  split at h
  · simp only [Option.bind_eq_bind, Option.bind_eq_some_iff] at h
    obtain ⟨_, hinput, _, houtput, h⟩ := h
    obtain rfl := Option.some.inj h
    exact ⟨ofNumbers_count.passes_of hinput, ofNumbers_count.passes_of houtput⟩
  · cases h

theorem count_default {v : Value} {x : PyFloat} (h : Zod.default count (.ofRat 0) v = some x) :
    Passes count x := by
  unfold Zod.default at h
  split at h
  · obtain rfl := Option.some.inj h
    rfl
  · exact ofNumbers_count.passes_of h

/-- The card of an answer. -/
theorem card_sound {v : Value} {d : DecisionCardData} (h : decisionCardSchema v = some d) :
    SoundCard d := by
  unfold decisionCardSchema object at h
  split at h
  · simp only [Option.bind_eq_bind, Option.bind_eq_some_iff] at h
    obtain ⟨_, -, _, -, _, -, _, hcost, _, hlatency, _, htokens, _, hretries, _, -, _, -, h⟩ := h
    obtain rfl := Option.some.inj h
    obtain ⟨hinput, houtput⟩ := tokens_sound htokens
    exact ⟨ofNumbers_cost.passes_of hcost, ofNumbers_count.passes_of hlatency, hinput, houtput,
      count_default hretries, nofun⟩
  · cases h

/-- The card of a decision that was fetched. -/
theorem record_sound {v : Value} {d : DecisionCardData} (h : decisionRecordSchema v = some d) :
    SoundCard d := by
  unfold decisionRecordSchema object at h
  split at h
  · obtain ⟨_, -, h⟩ := Option.bind_eq_some_iff.mp h
    obtain ⟨_, -, h⟩ := Option.bind_eq_some_iff.mp h
    obtain ⟨_, -, h⟩ := Option.bind_eq_some_iff.mp h
    obtain ⟨_, -, h⟩ := Option.bind_eq_some_iff.mp h
    obtain ⟨_, -, h⟩ := Option.bind_eq_some_iff.mp h
    obtain ⟨_, -, h⟩ := Option.bind_eq_some_iff.mp h
    obtain ⟨_, -, h⟩ := Option.bind_eq_some_iff.mp h
    obtain ⟨_, -, h⟩ := Option.bind_eq_some_iff.mp h
    obtain ⟨_, hcost, h⟩ := Option.bind_eq_some_iff.mp h
    obtain ⟨_, hlatency, h⟩ := Option.bind_eq_some_iff.mp h
    obtain ⟨_, htokens, h⟩ := Option.bind_eq_some_iff.mp h
    obtain ⟨_, hretries, h⟩ := Option.bind_eq_some_iff.mp h
    obtain ⟨_, -, h⟩ := Option.bind_eq_some_iff.mp h
    obtain ⟨_, hfailovers, h⟩ := Option.bind_eq_some_iff.mp h
    obtain ⟨_, -, h⟩ := Option.bind_eq_some_iff.mp h
    obtain ⟨_, -, h⟩ := Option.bind_eq_some_iff.mp h
    obtain rfl := Option.some.inj h
    obtain ⟨hinput, houtput⟩ := tokens_sound htokens
    refine ⟨ofNumbers_cost.passes_of hcost, ofNumbers_count.passes_of hlatency, hinput, houtput,
      ofNumbers_count.passes_of hretries, fun x hx => ?_⟩
    obtain rfl := Option.some.inj hx
    exact ofNumbers_count.passes_of hfailovers
  · cases h

/-- The schema that reads a card checks all its numbers. -/
theorem storedCard_sound {v : Value} {d : DecisionCardData} (h : storedCardSchema v = some d) :
    SoundCard d := by
  unfold storedCardSchema object at h
  split at h
  · obtain ⟨_, -, h⟩ := Option.bind_eq_some_iff.mp h
    obtain ⟨_, -, h⟩ := Option.bind_eq_some_iff.mp h
    obtain ⟨_, -, h⟩ := Option.bind_eq_some_iff.mp h
    obtain ⟨_, hcost, h⟩ := Option.bind_eq_some_iff.mp h
    obtain ⟨_, hlatency, h⟩ := Option.bind_eq_some_iff.mp h
    obtain ⟨_, htokens, h⟩ := Option.bind_eq_some_iff.mp h
    obtain ⟨_, hretries, h⟩ := Option.bind_eq_some_iff.mp h
    obtain ⟨_, -, h⟩ := Option.bind_eq_some_iff.mp h
    obtain ⟨_, -, h⟩ := Option.bind_eq_some_iff.mp h
    obtain ⟨_, -, h⟩ := Option.bind_eq_some_iff.mp h
    obtain ⟨_, -, h⟩ := Option.bind_eq_some_iff.mp h
    obtain ⟨_, hfailovers, h⟩ := Option.bind_eq_some_iff.mp h
    obtain ⟨_, -, h⟩ := Option.bind_eq_some_iff.mp h
    obtain ⟨_, -, h⟩ := Option.bind_eq_some_iff.mp h
    obtain ⟨_, -, h⟩ := Option.bind_eq_some_iff.mp h
    obtain rfl := Option.some.inj h
    obtain ⟨hinput, houtput⟩ := tokens_sound htokens
    exact ⟨ofNumbers_cost.passes_of hcost, ofNumbers_count.passes_of hlatency, hinput, houtput,
      ofNumbers_count.passes_of hretries,
      fun x hx => ofNumbers_count.passes_of (optional_eq_some hfailovers x hx)⟩
  · cases h

/-- What the schema reads is sound. -/
theorem settings_sound {v : Value} {s : RoutingSettings} (h : settingsSchema v = some s) :
    SoundSettings s := by
  unfold settingsSchema object at h
  split at h
  · simp only [Option.bind_eq_bind, Option.bind_eq_some_iff] at h
    obtain ⟨_, -, _, -, _, -, _, hcost, _, hlatency, h⟩ := h
    obtain rfl := Option.some.inj h
    exact ⟨Or.inr (ofNumbers_cost.passes_of hcost), Or.inr (ofNumbers_latency.passes_of hlatency)⟩
  · cases h

theorem error_sound {v : Value} {e : MessageError} (h : messageErrorSchema v = some e) :
    SoundError e := by
  unfold messageErrorSchema object at h
  split at h
  · simp only [Option.bind_eq_bind, Option.bind_eq_some_iff] at h
    obtain ⟨_, -, _, -, _, hstatus, _, -, h⟩ := h
    obtain rfl := Option.some.inj h
    exact fun x hx => ofNumbers_int.passes_of (optional_eq_some hstatus x hx)
  · cases h

theorem message_sound {v : Value} {m : ChatMessage} (h : messageSchema v = some m) :
    MadeOf SoundSettings SoundCard SoundError m := by
  unfold messageSchema object at h
  split at h
  · simp only [Option.bind_eq_bind, Option.bind_eq_some_iff] at h
    obtain ⟨_, -, _, -, _, -, _, -, _, -, _, hsettings, _, hcard, _, herror, _, hwarning, _, -,
      h⟩ := h
    obtain rfl := Option.some.inj h
    exact ⟨fun s hs => settings_sound (optional_eq_some hsettings s hs),
      fun d hd => storedCard_sound (optional_eq_some hcard d hd),
      fun e he => error_sound (optional_eq_some herror e he),
      fun e he => error_sound (optional_eq_some hwarning e he)⟩
  · cases h

theorem conversation_sound {v : Value} {c : Conversation} (h : conversationSchema v = some c) :
    Sound c := by
  unfold conversationSchema object at h
  split at h
  · simp only [Option.bind_eq_bind, Option.bind_eq_some_iff] at h
    obtain ⟨_, -, _, -, _, -, _, -, _, hsettings, _, hmessages, _, -, h⟩ := h
    obtain rfl := Option.some.inj h
    refine ⟨settings_sound hsettings, fun m hm => ?_⟩
    obtain ⟨w, hw⟩ := array_eq_some hmessages m hm
    exact message_sound hw
  · cases h

/-- Everything that is read from the storage is sound. -/
theorem persisted_sound {v : Value} {p : Persisted} (h : persistedSchema v = some p) :
    ∀ c ∈ p.conversations, Sound c := by
  unfold persistedSchema object at h
  split at h
  · simp only [Option.bind_eq_bind, Option.bind_eq_some_iff] at h
    obtain ⟨_, -, _, -, conversations, hconversations, h⟩ := h
    split at h
    · obtain rfl := Option.some.inj h
      intro c hc
      obtain ⟨w, hw⟩ := array_eq_some hconversations c hc
      exact conversation_sound hw
    · cases h
  · cases h

/-- What is restored is sound, whatever is in the storage. -/
theorem load_sound (raw : Option Value) :
    StateOf SoundSettings SoundCard SoundError (loadPage (raw.bind readStored)).state := by
  cases hstored : raw.bind readStored with
  | none => exact fun c hc => absurd hc List.not_mem_nil
  | some p =>
    obtain ⟨v, -, hv⟩ := Option.bind_eq_some_iff.mp hstored
    intro c hc
    obtain ⟨c₀, hc₀, rfl⟩ := List.mem_map.mp hc
    exact conversationOf_restored.mpr (persisted_sound hv c₀ hc₀)

/-- Only persistent conversations are restored. -/
theorem load_persistent (stored : Option Persisted) :
    ∀ c ∈ (loadPage stored).state.conversations, c.storageMode = .persistent := by
  intro c hc
  cases stored with
  | none => exact absurd hc List.not_mem_nil
  | some p =>
    obtain ⟨c₀, hc₀, rfl⟩ := List.mem_map.mp hc
    exact p.persistent c₀ hc₀

/-! ## Every run -/

/-- An answer's status is an unsigned short. -/
def HttpStatus (e : MessageError) : Prop := ∀ x ∈ e.status, ∃ n : ℕ, n < 2 ^ 16 ∧ x = .ofRat (n : ℚ)

/-- What the page can be given: the panel's numbers, cards that a schema lets pass, and errors. -/
def Accepted : UiEvent → Prop
  | .updateSettings patch =>
    (∀ y ∈ patch.maxCostUsd, ∃ x, x ≠ .nan ∧ y = maxCostUsd x) ∧
      ∀ y ∈ patch.latencyTargetMs, ∃ x, x ≠ .nan ∧ y = latencyTargetMs x
  | .loadFixture _ card _ _ => ∀ d ∈ card, ∃ v, decisionCardSchema v = some d
  | .complete _ _ card warning =>
    (∀ d ∈ card, ∃ v, decisionRecordSchema v = some d) ∧ ∀ e ∈ warning, HttpStatus e
  | .fail _ error => HttpStatus error
  | _ => True

/-- A limit that is finite, a target below `2 ^ 53`, and no minus zero in a card. -/
def Moderate : UiEvent → Prop
  | .updateSettings patch =>
    (∀ y ∈ patch.maxCostUsd, y ≠ .inf false) ∧
      ∀ y ∈ patch.latencyTargetMs, y.below (2 ^ 53) = true
  | .loadFixture _ card _ _ | .complete _ _ card _ => ∀ d ∈ card, NoMinusZero (cardNumbers d)
  | _ => True

/-- The status of an HTTP response is an integer. -/
theorem soundError_of_http {e : MessageError} (h : HttpStatus e) : SoundError e := by
  intro x hx
  obtain ⟨n, hn, rfl⟩ := h x hx
  exact passes_int (by omega)

theorem plusError_of_http {e : MessageError} (h : HttpStatus e) : NoMinusZero (errorNumbers e) := by
  intro x hx
  obtain ⟨n, -, rfl⟩ := h x (Option.mem_toList.mp hx)
  exact ofRat_ne_minusZero n

/-- Settings after a patch: each number is the old one, or one of the patch. -/
theorem apply_cases {P : PyFloat → Prop} {o : Option PyFloat} {y : PyFloat} (hold : P y)
    (hnew : ∀ x ∈ o, P x) : P (o.getD y) := by
  cases o with
  | none => exact hold
  | some x => exact hnew x rfl

/-- An accepted event brings sound parts. -/
theorem Accepted.sound {e : UiEvent} (h : Accepted e) :
    EventOf SoundSettings SoundCard SoundError e := by
  cases e with
  | updateSettings patch =>
    intro settings hs
    constructor
    · refine apply_cases (P := fun x => x = .inf false ∨ Passes _ x) hs.cost fun y hy => ?_
      obtain ⟨x, hx, rfl⟩ := h.1 y hy
      exact maxCostUsd_sound hx
    · refine apply_cases (P := fun x => x.below _ = false ∨ Passes _ x) hs.latency fun y hy => ?_
      obtain ⟨x, hx, rfl⟩ := h.2 y hy
      exact latencyTargetMs_sound hx
  | loadFixture answer card userId assistantId =>
    intro d hd
    obtain ⟨v, hv⟩ := h d hd
    exact card_sound hv
  | complete n answer card warning =>
    refine ⟨fun d hd => ?_, fun e he => soundError_of_http (h.2 e he)⟩
    obtain ⟨v, hv⟩ := h.1 d hd
    exact record_sound hv
  | fail n error => exact soundError_of_http h
  | _ => trivial

/-- A moderate one brings parts that come back as they were. -/
theorem Accepted.storable {e : UiEvent} (h : Accepted e) (hmoderate : Moderate e) :
    EventOf StorableSettings (fun d => NoMinusZero (cardNumbers d))
      (fun e => NoMinusZero (errorNumbers e)) e := by
  cases e with
  | updateSettings patch =>
    intro settings hs
    have hcost : patch.maxCostUsd.getD settings.maxCostUsd ≠ .inf false ∧
        patch.maxCostUsd.getD settings.maxCostUsd ≠ .finite true 0 := by
      refine apply_cases (P := fun x => x ≠ .inf false ∧ x ≠ .finite true 0)
        ⟨hs.1.1, hs.2 _ (by simp [settingsNumbers])⟩ fun y hy => ⟨hmoderate.1 y hy, ?_⟩
      obtain ⟨x, hx, rfl⟩ := h.1 y hy
      exact maxCostUsd_plus hx
    have hlatency : (patch.latencyTargetMs.getD settings.latencyTargetMs).below (2 ^ 53) = true ∧
        patch.latencyTargetMs.getD settings.latencyTargetMs ≠ .finite true 0 := by
      refine apply_cases (P := fun x => x.below (2 ^ 53) = true ∧ x ≠ .finite true 0)
        ⟨hs.1.2, hs.2 _ (by simp [settingsNumbers])⟩ fun y hy => ⟨hmoderate.2 y hy, ?_⟩
      obtain ⟨x, hx, rfl⟩ := h.2 y hy
      exact latencyTargetMs_plus hx
    refine ⟨⟨hcost.1, hlatency.1⟩, fun x hx => ?_⟩
    rcases List.mem_pair.mp hx with rfl | rfl
    · exact hcost.2
    · exact hlatency.2
  | loadFixture answer card userId assistantId => exact hmoderate
  | complete n answer card warning => exact ⟨hmoderate, fun e he => plusError_of_http (h.2 e he)⟩
  | fail n error => exact plusError_of_http h
  | _ => trivial

theorem sound_default : SoundSettings defaultSettings where
  cost := Or.inr (passes_cost (by norm_num))
  latency := Or.inr (passes_latency (n := 3000) (by norm_num) (by norm_num))

theorem storable_default : StorableSettings defaultSettings := by
  refine ⟨⟨nofun, ?_⟩, fun x hx => ?_⟩
  · rw [defaultSettings, below_ofRat]
    norm_num
  · rcases List.mem_pair.mp hx with rfl | rfl
    · exact ofRat_ne_minusZero _
    · exact ofRat_ne_minusZero _

/-- **The round trip of every state the page can reach.** It holds just where no conversation that
is kept has numbers which do not come back, and it holds all along where only moderate numbers are
entered and accepted. -/
theorem stored_round_trip {raw : Option Value} {ts : List (Page × (JsString × UiEvent) × Page)}
    {p : Page}
    (hrun : PageRun (loadPage (raw.bind readStored)) ts p)
    (haccepted : ∀ t ∈ ts, Accepted t.2.1.2) :
    (RoundTrip p.state ↔ Storable p.state) ∧
      (Storable (loadPage (raw.bind readStored)).state → (∀ t ∈ ts, Moderate t.2.1.2) →
        RoundTrip p.state) := by
  have hsound : StateOf SoundSettings SoundCard SoundError p.state :=
    run_keeps sound_default hrun (load_sound raw) fun t ht => (haccepted t ht).sound
  have hiff : RoundTrip p.state ↔ Storable p.state :=
    roundTrip_iff fun c hc => hsound c (mem_persistState.mp hc).1
  refine ⟨hiff, fun hload hmoderate => hiff.mpr fun c hc _ => ?_⟩
  exact run_keeps storable_default hrun (fun c hc => hload c hc (load_persistent _ c hc))
    (fun t ht => (haccepted t ht).storable (hmoderate t ht)) c hc

/-- The run that some events make. -/
theorem run_of_events {p p' : Page} {ls : List (JsString × UiEvent)}
    (h : ls.foldlM (fun p l => Web.step p l.1 l.2) p = some p') :
    ∃ ts, PageRun p ts p' ∧ ts.map (·.2.1) = ls := by
  induction ls generalizing p with
  | nil =>
    obtain rfl := Option.some.inj h
    exact ⟨[], .refl, rfl⟩
  | cons l ls ih =>
    obtain ⟨p₁, hstep, h⟩ := Option.bind_eq_some_iff.mp h
    obtain ⟨ts, hrun, rfl⟩ := ih h
    exact ⟨(p, l, p₁) :: ts, Run.head hstep hrun, rfl⟩

/-- Two conversations, and a latency target for one of them. -/
def twoConversations (target : PyFloat) : List (JsString × UiEvent) :=
  [([], .createConversation "a"), ([], .createConversation "b"),
    ([], .updateSettings ⟨none, none, none, none, some (latencyTargetMs target)⟩)]

theorem twoConversations_accepted {target : PyFloat} (h : target ≠ .nan) :
    ∀ l ∈ twoConversations target, Accepted l.2 := by
  intro l hl
  rcases List.mem_cons.mp hl with rfl | hl
  · trivial
  · rcases List.mem_pair.mp hl with rfl | rfl
    · trivial
    · refine ⟨nofun, fun y hy => ?_⟩
      obtain rfl := Option.some.inj hy
      exact ⟨target, h, rfl⟩

/-- What a check of the last state finds. -/
theorem run_of_check (target : PyFloat) (check : ConversationState → Bool) (h : target ≠ .nan)
    (hcheck : ((twoConversations target).foldlM (fun p l => Web.step p l.1 l.2)
      (loadPage none)).any (fun p => check p.state) = true) :
    ∃ ts p, PageRun (loadPage none) ts p ∧
      (∀ t ∈ ts, Accepted t.2.1.2) ∧ ts.map (·.2.1) = twoConversations target ∧
      check p.state = true := by
  obtain ⟨p, hp, hcheck⟩ := (Option.any_eq_true _ _).mp hcheck
  obtain ⟨ts, hrun, hts⟩ := run_of_events hp
  refine ⟨ts, p, hrun, fun t ht => twoConversations_accepted h t.2.1 ?_, hts, hcheck⟩
  rw [← hts]
  exact List.mem_map_of_mem ht

/-- Both come back where the target is moderate, none where it is not. -/
theorem targets_checked :
    ((twoConversations (.ofRat 3000)).foldlM (fun p l => Web.step p l.1 l.2)
      (loadPage none)).any (fun p => (kept p.state).conversations.length = 2) = true ∧
    ((twoConversations (.ofRat (2 ^ 53))).foldlM (fun p l => Web.step p l.1 l.2)
      (loadPage none)).any (fun p => (kept p.state).conversations.length = 2 ∧
        reloaded p.state = ⟨[], none, true⟩) = true := by
  decide +kernel

theorem twoConversations_moderate : ∀ l ∈ twoConversations (.ofRat 3000), Moderate l.2 := by
  intro l hl
  rcases List.mem_cons.mp hl with rfl | hl
  · trivial
  · rcases List.mem_pair.mp hl with rfl | rfl
    · trivial
    · refine ⟨nofun, fun y hy => ?_⟩
      obtain rfl := Option.some.inj hy
      decide +kernel

/-- Two conversations that come back, settings entered by hand included. -/
theorem stored_round_trip_entered : ∃ ts p,
    PageRun (loadPage none) ts p ∧
      (kept p.state).conversations.length = 2 ∧ RoundTrip p.state := by
  obtain ⟨ts, p, hrun, haccepted, hts, hcheck⟩ := run_of_check (.ofRat 3000)
    (fun s => (kept s).conversations.length = 2) nofun targets_checked.1
  refine ⟨ts, p, hrun, of_decide_eq_true hcheck, ?_⟩
  refine (@stored_round_trip none ts p hrun haccepted).2 (fun c hc => absurd hc List.not_mem_nil) ?_
  intro t ht
  have hmem : t.2.1 ∈ twoConversations (.ofRat 3000) := hts ▸ List.mem_map_of_mem ht
  exact twoConversations_moderate t.2.1 hmem

/-- One target of `2 ^ 53` and nothing comes back. -/
theorem target_forgets_all : ∃ ts p,
    PageRun (loadPage none) ts p ∧
      (∀ t ∈ ts, Accepted t.2.1.2) ∧ (kept p.state).conversations.length = 2 ∧
      reloaded p.state = ⟨[], none, true⟩ ∧ ¬ RoundTrip p.state := by
  obtain ⟨ts, p, hrun, haccepted, -, hcheck⟩ := run_of_check (.ofRat (2 ^ 53))
    (fun s => (kept s).conversations.length = 2 ∧ reloaded s = ⟨[], none, true⟩) nofun
    targets_checked.2
  obtain ⟨hkept, hreloaded⟩ := of_decide_eq_true hcheck
  refine ⟨ts, p, hrun, haccepted, hkept, hreloaded, fun h => ?_⟩
  rw [← h, hreloaded] at hkept
  cases hkept

end PolyGate.Web.Storage
