import PolyGate.Gateway.Policy
import PolyGate.Lib.Except
import PolyGate.Lib.Run

/-!
# `Gateway/LastKnownGood.lean` — refreshing the Gateway's policy, whatever is answered

The law (`KeepsLastKnownGood`) is that a refresh does not raise, takes a valid answer with its
ETag, and otherwise changes nothing. `refreshOnce_keeps_iff` says exactly when it holds
(`Expected`): the body is indexed before it is validated, so a body whose `policy` cannot be
indexed by name is a `TypeError`, which is not caught, and a valid answer that brings no ETag
leaves the old one beside the new snapshot.

`_policy_refresh_loop` catches nothing, so an exception of one refresh is the end of the loop.
-/

namespace PolyGate.Gateway

open Lib Pydantic
open Automation (Body PolicyReply)

variable (c : Coercions)

namespace LastKnownGood

/-- What a 200 with a valid body brings: its snapshot, and the ETag if it has one. -/
def valid : PolicyReply → Option (GatewayPolicySnapshot × Option String)
  | .response 200 (.json v) etag =>
    match readBody c v with
    | .ok snapshot => some (snapshot, etag)
    | .error _ => none
  | _ => none

/-- The law of one refresh. -/
def KeepsLastKnownGood (s : PolicyRuntime) (reply : PolicyReply) : Prop :=
  (∀ e, (s.refreshOnce c reply).1 ≠ .raised e) ∧
    (s.refreshOnce c reply).2 =
      match valid c reply with
      | some (snapshot, etag) => ⟨snapshot, etag⟩
      | none => s

/-- `body["policy"]["gateway"]` is no `TypeError`: what is indexed is an object. -/
def Indexable : Json → Prop
  | .obj o => ∀ policy ∈ Obj.get? o "policy", ∃ o', policy = .obj o'
  | _ => False

/-- The body of a 200 can be read without a surprise. -/
def Readable : Body → Prop
  | .notJson => True
  | .tooDeep => False
  | .json v => Indexable v

/-- The answers that a refresh in this state deals with. -/
structure Expected (s : PolicyRuntime) (reply : PolicyReply) : Prop where
  sendable : s.sendable = true
  decodes : reply ≠ .decodingError
  readable : ∀ body etag, reply = .response 200 body etag → Readable body
  /-- a new snapshot brings its own ETag, unless there is none to replace -/
  tagged : ∀ snapshot, valid c reply = some (snapshot, none) → s.etag = none

variable {c}

/-! ## One refresh -/

theorem validated_ne_typeError {α : Type} {o : Option α} : validated o ≠ .error .typeError := by
  cases o <;> simp [validated]

theorem index_typeError_iff {v : Json} {key : String} :
    index v key = .error .typeError ↔ ∀ o, v ≠ .obj o := by
  cases v with
  | obj o =>
    have hne : index (.obj o) key ≠ .error .typeError := by
      simp only [index]
      split <;> simp
    exact iff_of_false hne fun h => h o rfl
  | _ => simp [index]

theorem index_obj_ok {o : Obj} {key : String} {v : Json} :
    index (.obj o) key = .ok v ↔ Obj.get? o key = some v := by
  simp only [index]
  split <;> simp_all

/-- Walking a body is a `TypeError` exactly when something that is indexed is no object. -/
theorem readBody_typeError_iff {v : Json} :
    readBody c v = .error .typeError ↔ ¬Indexable v := by
  unfold readBody
  cases v with
  | obj o =>
    -- the body is an object, so only its `policy` can be at fault
    have hbody : ∀ key, index (.obj o) key ≠ .error .typeError := fun key h =>
      index_typeError_iff.mp h o rfl
    simp only [bind_eq_error, hbody, validated_ne_typeError, false_or, and_false, or_false,
      exists_false, index_obj_ok, index_typeError_iff, Indexable, Option.mem_def]
    push Not
    exact Iff.rfl
  | _ => simp [bind_eq_error, index, Indexable]

theorem valid_eq_some {reply : PolicyReply} {snapshot : GatewayPolicySnapshot}
    {etag : Option String} : valid c reply = some (snapshot, etag) ↔
      ∃ v, reply = .response 200 (.json v) etag ∧ readBody c v = .ok snapshot := by
  unfold valid
  constructor
  · intro h
    split at h
    · rename_i v etag'
      split at h
      · rename_i snapshot' hread
        cases h
        exact ⟨v, rfl, hread⟩
      · cases h
    · cases h
  · rintro ⟨v, rfl, hread⟩
    simp [hread]

/-- Another answer is not valid. -/
theorem valid_eq_none {reply : PolicyReply} (h : ∀ v etag, reply ≠ .response 200 (.json v) etag) :
    valid c reply = none := by
  cases hv : valid c reply with
  | none => rfl
  | some p =>
    obtain ⟨v, rfl, -⟩ := valid_eq_some.mp hv
    exact absurd rfl (h v _)

/-- What a refresh makes of the state: only a valid answer changes it. -/
theorem receive_state (s : PolicyRuntime) (reply : PolicyReply) :
    (s.receive c reply).2 =
      match valid c reply with
      | some (snapshot, etag) => ⟨snapshot, etag.or s.etag⟩
      | none => s := by
  cases reply with
  | transportError => rfl
  | decodingError => rfl
  | response status body etag =>
    by_cases h : status = 200
    · subst h
      cases body with
      | notJson => rfl
      | tooDeep => rfl
      | json v =>
        cases hbody : readBody c v with
        | ok snapshot => rw [valid_eq_some.mpr ⟨v, rfl, hbody⟩, s.receive_valid etag hbody]
        | error e => cases e <;> simp [PolicyRuntime.receive, valid, hbody]
    · have hnot : valid c (.response status body etag) = none :=
        valid_eq_none fun v etag' hreply => h (by cases hreply; rfl)
      rw [hnot]
      simp only [PolicyRuntime.receive, ne_eq, h, not_false_eq_true, if_true]
      split <;> rfl

/-- When a refresh raises, once the request was sent. -/
theorem receive_quiet_iff (s : PolicyRuntime) (reply : PolicyReply) :
    (∀ e, (s.receive c reply).1 ≠ .raised e) ↔
      reply ≠ .decodingError ∧
        ∀ body etag, reply = .response 200 body etag → Readable body := by
  cases reply with
  | transportError => simp [PolicyRuntime.receive]
  | decodingError => simp [PolicyRuntime.receive]
  | response status body etag =>
    by_cases h : status = 200
    · subst h
      simp only [PolicyRuntime.receive, Nat.reduceEqDiff, ne_eq, not_true_eq_false, if_false,
        reduceCtorEq, not_false_eq_true, true_and, PolicyReply.response.injEq]
      cases body with
      | notJson => simp [Readable]
      | tooDeep => simp [Readable]
      | json v =>
        have hread : Readable (.json v) ↔ readBody c v ≠ .error .typeError := by
          rw [ne_eq, readBody_typeError_iff, not_not]
          exact Iff.rfl
        have hall : (∀ body etag', Body.json v = body ∧ etag = etag' → Readable body) ↔
            Readable (.json v) :=
          ⟨fun h => h _ _ ⟨rfl, rfl⟩, fun h body etag' hb => hb.1 ▸ h⟩
        rw [hall, hread]
        cases hbody : readBody c v with
        | ok snapshot => simp [hbody]
        | error e => cases e <;> simp [hbody]
    · have hquiet : ∀ e, (s.receive c (.response status body etag)).1 ≠ .raised e := by
        intro e
        simp only [PolicyRuntime.receive, ne_eq, h, not_false_eq_true, if_true]
        split <;> simp
      refine iff_of_true hquiet ⟨by simp, fun body' etag' hreply => ?_⟩
      cases hreply
      exact absurd rfl h

/-- **Exactly when a refresh keeps the law.** -/
theorem refreshOnce_keeps_iff (s : PolicyRuntime) (reply : PolicyReply) :
    KeepsLastKnownGood c s reply ↔ Expected c s reply := by
  unfold KeepsLastKnownGood PolicyRuntime.refreshOnce
  by_cases hsend : s.sendable = true
  · rw [if_pos hsend, receive_quiet_iff, receive_state]
    -- what is left to compare is the ETag that a valid answer leaves
    have htag : (∀ p, valid c reply = some p → (p.2.or s.etag = p.2)) ↔
        ∀ snapshot, valid c reply = some (snapshot, none) → s.etag = none := by
      constructor
      · intro h snapshot hv
        exact h _ hv
      · rintro h ⟨snapshot, etag⟩ hv
        cases etag with
        | none => exact h snapshot hv
        | some value => rfl
    constructor
    · rintro ⟨⟨hdecodes, hreadable⟩, hstate⟩
      refine ⟨hsend, hdecodes, hreadable, htag.mp fun p hv => ?_⟩
      rw [hv] at hstate
      exact congrArg PolicyRuntime.etag hstate
    · rintro ⟨-, hdecodes, hreadable, htagged⟩
      refine ⟨⟨hdecodes, hreadable⟩, ?_⟩
      cases hv : valid c reply with
      | none => rfl
      | some p => exact congrArg (PolicyRuntime.mk p.1) (htag.mpr htagged p hv)
  · rw [if_neg hsend]
    exact iff_of_false (fun h => h.1 _ rfl) fun h => hsend h.sendable

/-! ## The polling loop -/

/-- `_policy_refresh_loop`; an exception of a refresh ends it. -/
structure RefreshLoop where
  alive : Bool
  runtime : PolicyRuntime

variable (c) in
/-- One round of the loop. -/
inductive Poll (w : RefreshLoop) : PolicyReply → RefreshLoop → Prop
  | survives {reply : PolicyReply} (alive : w.alive = true)
      (quiet : ∀ e, (w.runtime.refreshOnce c reply).1 ≠ .raised e) :
      Poll w reply ⟨true, (w.runtime.refreshOnce c reply).2⟩
  | ends {reply : PolicyReply} {e : RefreshExc} (alive : w.alive = true)
      (raises : (w.runtime.refreshOnce c reply).1 = .raised e) :
      Poll w reply ⟨false, (w.runtime.refreshOnce c reply).2⟩

variable (c) in
/-- The last valid answer of a run. -/
def lastValid (ts : List (RefreshLoop × PolicyReply × RefreshLoop)) :
    Option (GatewayPolicySnapshot × Option String) :=
  ts.reverse.findSome? fun t => valid c t.2.1

/-- What holds of the loop after the rounds `ts`. -/
def Survives (c : Coercions) (s₀ : PolicyRuntime)
    (ts : List (RefreshLoop × PolicyReply × RefreshLoop)) (w : RefreshLoop) : Prop :=
  w.alive = true ∧
    w.runtime = match lastValid c ts with
      | some (snapshot, etag) => ⟨snapshot, etag⟩
      | none => s₀

theorem Survives.step {s₀ : PolicyRuntime} {ts : List (RefreshLoop × PolicyReply × RefreshLoop)}
    {w w' : RefreshLoop} {reply : PolicyReply} (hi : Survives c s₀ ts w)
    (hok : Expected c w.runtime reply) (hst : Poll c w reply w') :
    Survives c s₀ (ts ++ [(w, reply, w')]) w' := by
  obtain ⟨hquiet, hstate⟩ := (refreshOnce_keeps_iff _ _).mpr hok
  cases hst with
  | survives alive quiet =>
    refine ⟨rfl, ?_⟩
    unfold lastValid
    rw [List.reverse_append, List.reverse_singleton, List.singleton_append, List.findSome?_cons]
    cases hv : valid c reply with
    | none =>
      rw [hv] at hstate
      exact hstate.trans hi.2
    | some p =>
      rw [hv] at hstate
      exact hstate
  | ends alive raises => exact absurd raises (hquiet _)

/-- **Last Known Good.** A refresh keeps the law exactly when the answer is an expected one. In
every run of the loop whose answers all are, the loop is alive, and it holds what the last valid
answer brought, or what it started with. -/
theorem last_known_good (c : Coercions) :
    (∀ s reply, KeepsLastKnownGood c s reply ↔ Expected c s reply) ∧
    ∀ s₀ ts w, Run (Poll c) ⟨true, s₀⟩ ts w → (∀ t ∈ ts, Expected c t.1.runtime t.2.1) →
      Survives c s₀ ts w := by
  refine ⟨refreshOnce_keeps_iff, fun s₀ ts w hrun hok => ?_⟩
  exact (hrun.restrict (P := fun w reply => Expected c w.runtime reply) hok).history
    (I := Survives c s₀) ⟨rfl, rfl⟩ fun _ _ _ _ hi hst => hi.step hst.1 hst.2

/-! ## A body that is a list -/

/-- The body of a 200 with version 2 and the same gateway policy. -/
def secondBody : Json := .obj
  [(str "version", .int 2),
   (str "policy", .obj [(str "gateway", defaultGatewayPolicy.json)])]

theorem readBody_secondBody :
    readBody .textless secondBody = .ok ⟨2, defaultGatewayPolicy, by decide⟩ := by
  refine readBody_eq_ok.mpr ⟨_, _, rfl, rfl, ?_, rfl⟩
  rw [required_cons, if_pos rfl]
  exact readGatewayRoutingPolicy_json _ _

/-- Through a lost request, a valid answer and a 503. -/
theorem last_known_good_second : ∃ ts w, Run (Poll .textless) ⟨true, .fallback⟩ ts w ∧
    w.runtime = ⟨⟨2, defaultGatewayPolicy, by decide⟩, some "\"policy-v2\""⟩ ∧
    Survives .textless .fallback ts w := by
  let second : PolicyRuntime := ⟨⟨2, defaultGatewayPolicy, by decide⟩, some "\"policy-v2\""⟩
  let answer : PolicyReply := .response 200 (.json secondBody) second.etag
  have hanswer : PolicyRuntime.fallback.refreshOnce .textless answer = (.reloaded, second) :=
    (if_pos rfl).trans (PolicyRuntime.receive_valid .fallback second.etag readBody_secondBody)
  have hquiet : ∀ e, (PolicyRuntime.fallback.refreshOnce .textless answer).1 ≠ .raised e := by
    simp [hanswer]
  have hlost : Poll .textless ⟨true, .fallback⟩ .transportError ⟨true, .fallback⟩ :=
    .survives rfl fun e h => by cases h
  have htaken : Poll .textless ⟨true, .fallback⟩ answer ⟨true, second⟩ := by
    have h := Poll.survives (c := .textless) (w := ⟨true, .fallback⟩) rfl hquiet
    rwa [hanswer] at h
  have hrefused : Poll .textless ⟨true, second⟩ (.response 503 .notJson none) ⟨true, second⟩ :=
    .survives rfl fun e h => by cases h
  have hrun := Run.tail (.tail (.tail .refl hlost) htaken) hrefused
  refine ⟨_, _, hrun, rfl, (last_known_good .textless).2 _ _ _ hrun fun t ht => ?_⟩
  refine ((last_known_good .textless).1 _ _).mp ?_
  simp only [List.nil_append, List.cons_append, List.mem_cons, List.not_mem_nil, or_false] at ht
  rcases ht with rfl | rfl | rfl
  · exact ⟨fun e h => (by cases h), rfl⟩
  · refine ⟨hquiet, ?_⟩
    rw [hanswer, valid_eq_some.mpr ⟨_, rfl, readBody_secondBody⟩]
  · exact ⟨fun e h => (by cases h), rfl⟩

/-- **A 200 whose body is a list ends the loop.** It is a `TypeError`, and no answer is asked for
after it. -/
theorem list_body_ends_loop :
    (∃ s reply, ¬KeepsLastKnownGood .textless s reply) ∧
    ∃ ts w, Run (Poll .textless) ⟨true, .fallback⟩ ts w ∧ w.alive = false := by
  have hraises :
      (PolicyRuntime.fallback.refreshOnce .textless (.response 200 (.json (.arr [])) none)).1 =
      .raised .typeError := rfl
  refine ⟨⟨_, _, fun h => h.1 _ hraises⟩, _, _, .tail .refl (.ends rfl hraises), rfl⟩

end LastKnownGood

end PolyGate.Gateway
