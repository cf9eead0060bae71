import PolyGate.Lib.RelyGuarantee
import PolyGate.Automation.KubernetesPolicyRepository
import PolyGate.Automation.Policy.NextDocument

/-!
# `Automation/Policy/Durability.lean` — what the outcome of a call says about its write

The repository as a server across a network. A write whose caller has seen a failure may have
been applied, may still be applied later, or never; other writers commit between any two steps.
Any number of calls run beside each other; what they do to their own managers is of no
consequence here.

A call that returns has its record in the history. A call that raises a conflict, or says its
write was not committed, has none of its writes there — as long as nothing happens behind the
back of the reload it judged by (`Timely`): no other writer commits on top of the call's own
write before the reload, and no write is applied after it.
-/

namespace PolyGate.Automation.Durability

open Lib

variable {ι : Type}

/-! ## The server -/

structure Server (ι : Type) where
  document : PolicyStoreDocument
  revision : Revision
  /-- the history: every document so far, oldest first, with the call that wrote it -/
  commits : List (Option ι × PolicyStoreDocument)
  /-- a write that the server may still apply although its caller has seen a failure -/
  inFlight : ι → Option (PolicyStoreDocument × Revision)
  /-- the call has seen its write fail -/
  failed : ι → Bool
  /-- a load of the call has been answered since -/
  reloaded : ι → Bool

namespace Server

/-- The document is replaced. -/
def commit (s : Server ι) (writer : Option ι) (document : PolicyStoreDocument) : Server ι :=
  { s with
    document := document
    revision := s.revision + 1
    commits := s.commits ++ [(writer, document)] }

def start (document : PolicyStoreDocument) (revision : Revision) : Server ι where
  document := document
  revision := revision
  commits := [(none, document)]
  inFlight _ := none
  failed _ := false
  reloaded _ := false

variable [DecidableEq ι]

/-- The server has answered a load of `i`. -/
def answerLoad (s : Server ι) (i : ι) : Server ι :=
  { s with reloaded := Function.update s.reloaded i (s.failed i) }

/-- The caller sees the write fail. -/
def fail (s : Server ι) (i : ι) : Server ι := { s with failed := Function.update s.failed i true }

/-- The write stays on its way. -/
def delay (s : Server ι) (i : ι) (document : PolicyStoreDocument) (expected : Revision) :
    Server ι :=
  { s with inFlight := Function.update s.inFlight i (some (document, expected)) }

/-- The write is no longer on its way. -/
def settle (s : Server ι) (i : ι) : Server ι :=
  { s with inFlight := Function.update s.inFlight i none }

/-- What the server does with a write, as far as the reply lets it: apply it, refuse it, keep it
for later or lose it. -/
inductive Handles (s : Server ι) (i : ι) (document : PolicyStoreDocument) (expected : Revision) :
    Kubernetes.HttpReply → Server ι → Prop
  | applied {reply : Kubernetes.HttpReply} (current : expected = s.revision)
      (honest : reply.NoConflict) :
      Handles s i document expected reply (s.commit (some i) document)
  | refused {body : Kubernetes.Body} (stale : expected ≠ s.revision) :
      Handles s i document expected (.response 409 body) s
  | late {reply : Kubernetes.HttpReply} (honest : reply.NoConflict)
      (unanswered : ∀ snapshot, Kubernetes.compareAndSwap document reply ≠ .ok snapshot) :
      Handles s i document expected reply (s.delay i document expected)
  | lost {reply : Kubernetes.HttpReply} (honest : reply.NoConflict)
      (unanswered : ∀ snapshot, Kubernetes.compareAndSwap document reply ≠ .ok snapshot) :
      Handles s i document expected reply s

/-- What the commands of call `i` do. -/
def does (i : ι) (s : Server ι) (c : PolicyCmd) (v : Except PolicyExc c.Reply) (s' : Server ι) :
    Prop :=
  match c, v with
  | .load, .ok (snapshot : RepositorySnapshot) =>
    snapshot = ⟨s.document, s.revision⟩ ∧ s' = s.answerLoad i
  | .load, .error e =>
    (∃ reply, reply.NoConflict ∧ Kubernetes.load reply = .error e) ∧ s' = s
  | .compareAndSwap document expected, .ok (snapshot : RepositorySnapshot) =>
    ∃ reply, Kubernetes.compareAndSwap document reply = .ok snapshot ∧
      s.Handles i document expected reply s'
  | .compareAndSwap document expected, .error e =>
    ∃ reply s₁, Kubernetes.compareAndSwap document reply = .error e ∧
      s.Handles i document expected reply s₁ ∧ s' = s₁.fail i
  | .cacheSetActive _, .error e => (∃ msg, e = .cacheError msg) ∧ s' = s
  | .now, .ok _ | .setReady _, .ok _ | .setActive _, .ok _ | .cacheSetActive _, .ok _ => s' = s
  | _, .error _ => False

end Server

/-! ## The network -/

abbrev Network (ι : Type) := Pool ι (Server ι) PolicyCmd PolicyCmd.Reply PolicyExc PublishResult

def Network.start (document : PolicyStoreDocument) (revision : Revision)
    (calls : ι → PolicyCall) : Network ι where
  shared := .start document revision
  threads i := (calls i).program

inductive Label (ι : Type)
  /-- a call executes a command, and is answered or not -/
  | command (i : ι) (c : PolicyCmd) (answered : Bool)
  /-- a delayed write is applied -/
  | deliver (i : ι)
  /-- a delayed write is lost, or refused -/
  | drop (i : ι)
  /-- another writer commits -/
  | commit (document : PolicyStoreDocument)

inductive Network.Step [DecidableEq ι] (w : Network ι) : Label ι → Network ι → Prop
  | command {i : ι} {c : PolicyCmd} {k : Except PolicyExc c.Reply → Pm PublishResult}
      {v : Except PolicyExc c.Reply} {s : Server ι} (next : w.threads i = .cmd c k)
      (does : w.shared.does i c v s) :
      Step w (.command i c v.isOk) ⟨s, Function.update w.threads i (k v)⟩
  | deliver {i : ι} {document : PolicyStoreDocument}
      (sent : w.shared.inFlight i = some (document, w.shared.revision)) :
      Step w (.deliver i) { w with shared := (w.shared.commit (some i) document).settle i }
  | drop {i : ι} : Step w (.drop i) { w with shared := w.shared.settle i }
  | commit {document : PolicyStoreDocument} :
      Step w (.commit document) { w with shared := w.shared.commit none document }

/-- The condition: a reload is not answered once somebody has committed on top of the call's own
write, and no write is applied once its caller's reload has been answered. -/
def Timely (s : Server ι) : Label ι → Prop
  | .command i .load true => s.failed i = true → ∀ d, (some i, d) ∈ s.commits → d = s.document
  | .deliver i => s.reloaded i = false
  | _ => True

/-! ## What happens to a call from outside -/

/-- The document is in the history. -/
def Server.Logged (s : Server ι) : Prop := ∃ writer, (writer, s.document) ∈ s.commits

/-- What call `i` can see of the others and of the network. -/
structure Rely (i : ι) (s s' : Server ι) : Prop where
  commits : ∀ e ∈ s.commits, e ∈ s'.commits
  mine : ∀ d, (some i, d) ∈ s'.commits →
    (some i, d) ∈ s.commits ∨ (∃ rev, s.inFlight i = some (d, rev)) ∧ s.reloaded i = false
  inFlight : s'.inFlight i = s.inFlight i ∨ s'.inFlight i = none
  failed : s'.failed i = s.failed i
  reloaded : s'.reloaded i = s.reloaded i
  logged : s.Logged → s'.Logged

section Rely

variable {i j : ι} {s s' s'' : Server ι} {d : PolicyStoreDocument} {rev : Revision}

theorem Rely.refl (i : ι) (s : Server ι) : Rely i s s :=
  ⟨fun _ h => h, fun _ h => Or.inl h, Or.inl rfl, rfl, rfl, id⟩

theorem Rely.trans (h : Rely i s s') (h' : Rely i s' s'') : Rely i s s'' where
  commits e he := h'.commits e (h.commits e he)
  mine d hd := by
    rcases h'.mine d hd with hd | ⟨⟨rev, hrev⟩, hreloaded⟩
    · exact h.mine d hd
    · rcases h.inFlight with hin | hin
      · exact Or.inr ⟨⟨rev, hin ▸ hrev⟩, h.reloaded ▸ hreloaded⟩
      · rw [hin] at hrev
        cases hrev
  inFlight := by
    rcases h'.inFlight with h' | h'
    · exact h.inFlight.imp h'.trans h'.trans
    · exact Or.inr h'
  failed := h'.failed.trans h.failed
  reloaded := h'.reloaded.trans h.reloaded
  logged hl := h'.logged (h.logged hl)

/-- Changes of what the others keep to themselves. -/
theorem Rely.of_eq (hdoc : s'.document = s.document) (hcommits : s'.commits = s.commits)
    (hin : s'.inFlight i = s.inFlight i ∨ s'.inFlight i = none)
    (hfailed : s'.failed i = s.failed i) (hreloaded : s'.reloaded i = s.reloaded i) :
    Rely i s s' where
  commits e he := hcommits ▸ he
  mine d hd := Or.inl (hcommits ▸ hd)
  inFlight := hin
  failed := hfailed
  reloaded := hreloaded
  logged := by
    unfold Server.Logged
    rw [hdoc, hcommits]
    exact id

theorem Rely.commit {writer : Option ι} (h : writer ≠ some i) : Rely i s (s.commit writer d) where
  commits e he := List.mem_append_left _ he
  mine d' hd := by
    rcases List.mem_append.mp hd with hd | hd
    · exact Or.inl hd
    · exact absurd (congrArg Prod.fst (List.mem_singleton.mp hd)).symm h
  inFlight := Or.inl rfl
  failed := rfl
  reloaded := rfl
  logged _ := ⟨writer, List.mem_append_right _ List.mem_cons_self⟩

variable [DecidableEq ι]

theorem Rely.settle : Rely i s (s.settle j) := by
  refine .of_eq rfl rfl ?_ rfl rfl
  rcases eq_or_ne i j with rfl | hne
  · exact Or.inr (Function.update_self ..)
  · exact Or.inl (Function.update_of_ne hne ..)

theorem Rely.deliver (h : s.inFlight i = some (d, rev)) (hr : s.reloaded i = false) :
    Rely i s ((s.commit (some i) d).settle i) where
  commits e he := List.mem_append_left _ he
  mine d' hd := by
    rcases List.mem_append.mp hd with hd | hd
    · exact Or.inl hd
    · cases List.mem_singleton.mp hd
      exact Or.inr ⟨⟨rev, h⟩, hr⟩
  inFlight := Or.inr (Function.update_self ..)
  failed := rfl
  reloaded := rfl
  logged _ := ⟨some i, List.mem_append_right _ List.mem_cons_self⟩

theorem Rely.fail (h : i ≠ j) : Rely i s (s.fail j) :=
  .of_eq rfl rfl (Or.inl rfl) (Function.update_of_ne h ..) rfl

theorem Server.Handles.rely {reply : Kubernetes.HttpReply}
    (h : s.Handles j d rev reply s') (hne : i ≠ j) : Rely i s s' := by
  cases h with
  | applied current honest => exact .commit fun he => hne (Option.some.inj he).symm
  | refused stale => exact .refl i _
  | late honest unanswered =>
    exact .of_eq rfl rfl (Or.inl (Function.update_of_ne hne ..)) rfl rfl
  | lost honest unanswered => exact .refl i _

/-- What one call does is within what the others rely on. -/
theorem Server.does_rely {c : PolicyCmd} {v : Except PolicyExc c.Reply} (h : s.does j c v s')
    (hne : i ≠ j) : Rely i s s' := by
  cases v with
  | ok x =>
    cases c with
    | load =>
      obtain ⟨-, rfl⟩ := h
      exact .of_eq rfl rfl (Or.inl rfl) rfl (Function.update_of_ne hne ..)
    | compareAndSwap document expected =>
      obtain ⟨reply, -, h⟩ := h
      exact h.rely hne
    | now | setReady | setActive | cacheSetActive =>
      obtain rfl : s' = s := h
      exact .refl i _
  | error e =>
    cases c with
    | load | cacheSetActive =>
      obtain ⟨-, rfl⟩ := h
      exact .refl i _
    | compareAndSwap document expected =>
      obtain ⟨reply, s₁, -, h, rfl⟩ := h
      exact (h.rely hne).trans (.fail hne)
    | now | setReady | setActive => exact h.elim

end Rely

/-! ## What a call can say in the end -/

/-- The result is that of a record the call asked for, put on top of some document as `d`. -/
def Recorded (call : PolicyCall) (result : PublishResult) (d : PolicyStoreDocument) : Prop :=
  ∃ d₁ d₂ args warnings, args ∈ call.argsOn d₁ ∧ args.Extends d₂ d ∧
    result = args.result d.active warnings

/-- The exceptions that say the record is not in the history and will not be. -/
def Refuses : PolicyExc → Prop
  | .policyConflict _ | .policyConflictError _ => True
  | .repositoryUnavailable msg => msg = "policy repository write was not committed"
  | _ => False

/-- The outcome tells the truth. -/
def Truthful (i : ι) (call : PolicyCall) (o : Except PolicyExc PublishResult) (s : Server ι) :
    Prop :=
  match o with
  | .ok result => ∃ writer d, (writer, d) ∈ s.commits ∧ Recorded call result d
  | .error e => Refuses e → ∀ d, (some i, d) ∉ s.commits

/-- The call has not written, or its write has been refused. -/
structure Unwritten (i : ι) (s : Server ι) : Prop where
  absent : ∀ d, (some i, d) ∉ s.commits
  settled : s.inFlight i = none
  unfailed : s.failed i = false
  logged : s.Logged

/-- The call's write of `d'` has failed, as far as the call knows. -/
structure Pending (i : ι) (d' : PolicyStoreDocument) (s : Server ι) : Prop where
  written : ∀ d, (some i, d) ∈ s.commits → d = d'
  onItsWay : ∀ d rev, s.inFlight i = some (d, rev) → d = d'
  failed : s.failed i = true
  logged : s.Logged

/-- No write of the call is in the history, nor will it be. -/
structure Absent (i : ι) (s : Server ι) : Prop where
  absent : ∀ d, (some i, d) ∉ s.commits
  never : s.inFlight i = none ∨ s.reloaded i = true

section Stable

variable {i : ι} {s s' : Server ι} {d' : PolicyStoreDocument}

theorem Absent.rely (h : Absent i s) (hr : Rely i s s') : Absent i s' where
  absent d hd := by
    rcases hr.mine d hd with hd | ⟨⟨rev, hrev⟩, hreloaded⟩
    · exact h.absent d hd
    · rcases h.never with hn | hn
      · rw [hn] at hrev
        cases hrev
      · rw [hn] at hreloaded
        cases hreloaded
  never := by
    rcases h.never with hn | hn
    · exact Or.inl (hr.inFlight.elim (·.trans hn) id)
    · exact Or.inr (hr.reloaded.trans hn)

theorem Unwritten.absent' (h : Unwritten i s) : Absent i s := ⟨h.absent, Or.inl h.settled⟩

theorem Unwritten.rely (h : Unwritten i s) (hr : Rely i s s') : Unwritten i s' where
  absent := (h.absent'.rely hr).absent
  settled := hr.inFlight.elim (·.trans h.settled) id
  unfailed := hr.failed.trans h.unfailed
  logged := hr.logged h.logged

theorem Pending.rely (h : Pending i d' s) (hr : Rely i s s') : Pending i d' s' where
  written d hd := by
    rcases hr.mine d hd with hd | ⟨⟨rev, hrev⟩, -⟩
    · exact h.written d hd
    · exact h.onItsWay d rev hrev
  onItsWay d rev hrev := by
    rcases hr.inFlight with hin | hin
    · exact h.onItsWay d rev (hin ▸ hrev)
    · rw [hin] at hrev
      cases hrev
  failed := hr.failed.trans h.failed
  logged := hr.logged h.logged

end Stable

section Call

variable [DecidableEq ι] {i : ι} {call : PolicyCall} {args : CommitArgs} {s : Server ι}
  {d d' : PolicyStoreDocument}

abbrev SafeCall (i : ι) (call : PolicyCall) : Pm PublishResult → Server ι → Prop :=
  Prog.Safe (Exec.within (Server.does i) fun s c a => Timely s (.command i c a)) (Rely i)
    (fun s _ s' _ => ∀ j, j ≠ i → Rely j s s') (Truthful i call)

/-- The command rule; what the others rely on takes care of itself. -/
theorem safe_cmd {c : PolicyCmd} {k : Except PolicyExc c.Reply → Pm PublishResult}
    (h : ∀ s', Rely i s s' → ∀ v s'', Timely s' (.command i c v.isOk) → s'.does i c v s'' →
      SafeCall i call (k v) s'') : SafeCall i call (.cmd c k) s :=
  fun s' hr v s'' hx => ⟨fun _ hj => Server.does_rely hx.2 hj, h s' hr v s'' hx.1 hx.2⟩

theorem safe_raise {e : PolicyExc} (h : Refuses e → Absent i s) : SafeCall i call (.raise e) s :=
  fun _ hr he => ((h he).rely hr).absent

/-- A command that only concerns the manager. -/
theorem safe_local {c : PolicyCmd} {f : c.Reply → Pm PublishResult}
    (hc : ∀ (s' s'' : Server ι) v, s'.does i c v s'' → s'' = s' ∧ ∃ x, v = .ok x)
    (h : ∀ s' x, Rely i s s' → SafeCall i call (f x) s') :
    SafeCall i call (.cmd c (Prog.onReply f)) s := by
  refine safe_cmd fun s' hr v s'' _ hx => ?_
  obtain ⟨rfl, x, rfl⟩ := hc _ _ _ hx
  exact h _ _ hr

theorem does_local {c : PolicyCmd} (hc : (∃ ready, c = .setReady ready) ∨
      (∃ record, c = .setActive record) ∨ c = .now) (s' s'' : Server ι)
    (v : Except PolicyExc c.Reply) (h : s'.does i c v s'') : s'' = s' ∧ ∃ x, v = .ok x := by
  obtain ⟨ready, rfl⟩ | ⟨record, rfl⟩ | rfl := hc <;> cases v with
    | ok x => exact ⟨h, x, rfl⟩
    | error e => exact h.elim

/-- The assignment and the cache write at the end of a call. -/
theorem safe_adopt {record : PolicyVersion} {k : Except PolicyExc Unit → Pm PublishResult}
    (h : ∀ v s', Rely i s s' → SafeCall i call (k v) s') :
    SafeCall i call (.cmd (.setActive record) (Prog.onReply fun _ =>
      .cmd (.cacheSetActive record.response) k)) s := by
  refine safe_local (does_local (Or.inr (Or.inl ⟨_, rfl⟩))) fun s₁ _ hr₁ => ?_
  refine safe_cmd fun s₂ hr₂ v s₃ _ hx => ?_
  have hs₃ : s₃ = s₂ := by
    cases v with
    | ok x => exact hx
    | error e => exact hx.2
  rw [hs₃]
  exact h v s₂ (hr₁.trans hr₂)

theorem safe_finishCommit {persisted : RepositorySnapshot}
    (hlog : ∃ writer, (writer, persisted.document) ∈ s.commits) (hargs : args ∈ call.argsOn d)
    (hext : args.Extends d' persisted.document) :
    SafeCall i call (finishCommit args persisted) s := by
  rw [finishCommit_eq]
  refine safe_local (does_local (Or.inl ⟨_, rfl⟩)) fun s₁ _ hr₁ => ?_
  refine safe_adopt fun v s₂ hr₂ s₃ hr₃ => ?_
  obtain ⟨writer, hw⟩ := hlog
  exact ⟨writer, _, ((hr₁.trans hr₂).trans hr₃).commits _ hw, d, d', args, _, hargs, hext, rfl⟩

/-- The reload after a failed write. Answered in time, it shows the call's own write, or that
there is none and will be none. -/
theorem safe_reload {snapshot : RepositorySnapshot} {msg : String} (hp : Pending i d' s)
    (hargs : args ∈ call.argsOn d) (hext : args.Extends snapshot.document d') :
    SafeCall i call (written args snapshot d' (.error (.repositoryUnavailable msg))) s := by
  refine safe_cmd fun s₁ hr₁ v s₁' htimely hx => ?_
  have hp₁ := hp.rely hr₁
  cases v with
  | error e =>
    obtain ⟨⟨reply, honest, hreply⟩, rfl⟩ := hx
    obtain ⟨msg, rfl⟩ := Kubernetes.load_error hreply honest
    refine safe_local (does_local (Or.inl ⟨_, rfl⟩)) fun s₂ _ _ => safe_raise fun h => ?_
    simp [Refuses] at h
  | ok persisted =>
    obtain ⟨rfl, rfl⟩ := hx
    have hown := htimely hp₁.failed
    refine safe_local (does_local (Or.inl ⟨_, rfl⟩)) fun s₂ _ hr₂ => ?_
    split_ifs with hnew hsame
    · refine safe_finishCommit ?_ hargs (hnew ▸ hext)
      obtain ⟨writer, hw⟩ := hp₁.logged
      exact ⟨writer, hr₂.commits _ hw⟩
    all_goals
      have habsent : Absent i s₂ := Absent.rely ⟨fun d hd => hnew ?_, Or.inr ?_⟩ hr₂
    · exact safe_raise fun _ => habsent
    · exact (hown d hd).symm.trans (hp₁.written d hd)
    · exact (Function.update_self ..).trans hp₁.failed
    · refine safe_adopt fun v s₃ hr₃ => safe_raise fun _ => habsent.rely hr₃
    · exact (hown d hd).symm.trans (hp₁.written d hd)
    · exact (Function.update_self ..).trans hp₁.failed

/-- What the server does with the write, told by what it answers. -/
theorem safe_written {snapshot : RepositorySnapshot} {v : Except PolicyExc RepositorySnapshot}
    {s' : Server ι} (hu : Unwritten i s) (hargs : args ∈ call.argsOn d)
    (hext : args.Extends snapshot.document d')
    (hx : s.does i (.compareAndSwap d' snapshot.revision) v s') :
    SafeCall i call (written args snapshot d' v) s' := by
  cases v with
  | ok persisted =>
    obtain ⟨reply, hreply, hx⟩ := hx
    obtain ⟨document, revision⟩ := persisted
    obtain rfl : document = d' := Kubernetes.compareAndSwap_document hreply
    cases hx with
    | applied current honest =>
      exact safe_finishCommit ⟨some i, List.mem_append_right _ List.mem_cons_self⟩ hargs hext
    | refused stale => simp [Kubernetes.compareAndSwap, Kubernetes.request] at hreply; cases hreply
    -- a request that got through late, or not at all, was not answered
    | late honest unanswered => exact absurd hreply (unanswered _)
    | lost honest unanswered => exact absurd hreply (unanswered _)
  | error e =>
    obtain ⟨reply, s₁, hreply, hx, rfl⟩ := hx
    have hfailed : (s₁.fail i).failed i = true := Function.update_self ..
    cases hx with
    | applied current honest =>
      obtain ⟨msg, rfl⟩ := Kubernetes.compareAndSwap_error hreply honest
      refine safe_reload ⟨fun d hd => ?_, fun d rev hd => ?_, hfailed, ?_⟩ hargs hext
      · rcases List.mem_append.mp hd with hd | hd
        · exact absurd hd (hu.absent d)
        · cases List.mem_singleton.mp hd
          rfl
      · exact absurd (hd.symm.trans hu.settled) (by simp)
      · exact ⟨some i, List.mem_append_right _ List.mem_cons_self⟩
    | refused stale =>
      cases hreply
      exact safe_raise fun _ => ⟨hu.absent, Or.inl hu.settled⟩
    | late honest unanswered =>
      obtain ⟨msg, rfl⟩ := Kubernetes.compareAndSwap_error hreply honest
      -- the write is still under way, and the reload may come before it
      refine safe_reload ⟨fun d hd => absurd hd (hu.absent d), fun d rev hd => ?_, hfailed,
        hu.logged⟩ hargs hext
      have hd' : some (d', snapshot.revision) = some (d, rev) :=
        (Function.update_self i _ s.inFlight).symm.trans hd
      cases hd'
      rfl
    | lost honest unanswered =>
      obtain ⟨msg, rfl⟩ := Kubernetes.compareAndSwap_error hreply honest
      exact safe_reload ⟨fun d hd => absurd hd (hu.absent d),
        fun d rev hd => absurd (hd.symm.trans hu.settled) (by simp), hfailed, hu.logged⟩ hargs hext

/-- An answered load of a call that has not written leaves it so. -/
theorem Unwritten.answerLoad (h : Unwritten i s) : Unwritten i (s.answerLoad i) :=
  ⟨h.absent, h.settled, h.unfailed, h.logged⟩

theorem safe_commit (hu : Unwritten i s) (hargs : args ∈ call.argsOn d) :
    SafeCall i call (commit args) s := by
  rw [commit_eq]
  refine safe_cmd fun s₁ hr₁ v s₁' _ hx => ?_
  have hu₁ := hu.rely hr₁
  cases v with
  | error e =>
    obtain ⟨-, rfl⟩ := hx
    exact safe_raise fun _ => hu₁.absent'
  | ok snapshot =>
  obtain ⟨rfl, rfl⟩ := hx
  simp only [Prog.onReply_ok]
  split_ifs
  · exact safe_raise fun _ => hu₁.answerLoad.absent'
  refine safe_local (does_local (Or.inr (Or.inr rfl))) fun s₂ now hr₂ => ?_
  have hu₂ := hu₁.answerLoad.rely hr₂
  rcases buildDocument_spec args s₁.document now with ⟨d', hb, hext, -⟩ | ⟨e, hb⟩
  · simp only [hb]
    exact safe_cmd fun s₃ hr₃ v s₃' _ hx => safe_written (hu₂.rely hr₃) hargs hext hx
  · simp only [hb]
    exact safe_raise fun _ => hu₂.absent'

theorem safe_program (call : PolicyCall) (hu : Unwritten i s) : SafeCall i call call.program s := by
  cases call with
  | publish baseVersion draft changeNote actor => exact safe_commit (d := s.document) hu rfl
  | rollback targetVersion baseVersion changeNote actor =>
    simp only [PolicyCall.program, rollback, Prog.perform_bind]
    refine safe_cmd fun s₁ hr₁ v s₁' _ hx => ?_
    have hu₁ := hu.rely hr₁
    cases v with
    | error e =>
      obtain ⟨-, rfl⟩ := hx
      exact safe_raise fun _ => hu₁.absent'
    | ok snapshot =>
      obtain ⟨rfl, rfl⟩ := hx
      dsimp only [Prog.onReply_ok]
      split
      · exact safe_raise fun _ => hu₁.answerLoad.absent'
      · rename_i target htarget
        refine safe_commit (d := s₁.document) hu₁.answerLoad ?_
        simp [PolicyCall.argsOn, htarget]

end Call

/-! ## Runs of the network -/

/-- Every call is on its way to an outcome that tells the truth. -/
def Network.Safe [DecidableEq ι] (calls : ι → PolicyCall) (w : Network ι) : Prop :=
  ∀ i, SafeCall i (calls i) (w.threads i) w.shared

section Runs

variable [DecidableEq ι] {calls : ι → PolicyCall} {w w' : Network ι} {l : Label ι}

theorem Network.Safe.start (document : PolicyStoreDocument) (revision : Revision)
    (calls : ι → PolicyCall) : (Network.start document revision calls).Safe calls := by
  intro i
  refine safe_program (calls i) ⟨by simp [Network.start, Server.start], rfl, rfl, none, ?_⟩
  exact List.mem_singleton_self _

/-- What happens outside all calls. -/
theorem Network.Safe.outside (h : w.Safe calls) {s : Server ι} (hr : ∀ i, Rely i w.shared s) :
    Network.Safe calls { w with shared := s } :=
  fun i => (h i).stable (fun _ _ _ => Rely.trans) (hr i)

theorem Network.Safe.step (h : w.Safe calls) (hst : w.Step l w') (hok : Timely w.shared l) :
    w'.Safe calls := by
  cases hst with
  | @command i c k v s next does =>
    have hpool : Pool.Step (fun i => Exec.within (Server.does i) fun s c a =>
        Timely s (.command i c a)) w (i, c) ⟨s, Function.update w.threads i (k v)⟩ :=
      .run next ⟨hok, does⟩
    exact (Pool.safe_step h hpool (fun i => Rely.refl i) (fun i _ _ _ => Rely.trans)
      fun i j _ _ _ _ hne hg => hg j hne.symm).2
  | @deliver i document sent =>
    refine h.outside fun j => ?_
    rcases eq_or_ne j i with rfl | hne
    · exact .deliver sent hok
    · exact (Rely.commit fun he => hne (Option.some.inj he).symm).trans .settle
  | drop => exact h.outside fun j => .settle
  | commit => exact h.outside fun j => .commit (by simp)

end Runs

/-- **A publish outcome tells the truth about durability**, for every call in every interleaving
whose steps are all timely: a result means that its record is in the history, and a conflict, or
a write reported as not committed, that the call's write is not — in every state reached, so it
never will be. -/
theorem outcome_tells_truth [DecidableEq ι] {document : PolicyStoreDocument} {revision : Revision}
    {calls : ι → PolicyCall} {ts : List (Network ι × Label ι × Network ι)} {w : Network ι}
    (hrun : Run Network.Step (Network.start document revision calls) ts w)
    (hok : ∀ t ∈ ts, Timely t.1.shared t.2.1) (i : ι) :
    (∀ result, w.threads i = .ret result →
      ∃ writer d, (writer, d) ∈ w.shared.commits ∧ Recorded (calls i) result d) ∧
    ∀ e, w.threads i = .raise e → Refuses e → ∀ d, (some i, d) ∉ w.shared.commits := by
  have hres : Run (fun a l b => Timely a.shared l ∧ Network.Step a l b)
      (Network.start document revision calls) ts w := hrun.restrict hok
  have hsafe : w.Safe calls := hres.invariant (I := Network.Safe calls)
    (.start document revision calls) fun _ _ _ h hst => h.step hst.2 hst.1
  have hi := hsafe i
  constructor
  · intro result hret
    rw [hret] at hi
    exact hi _ (Rely.refl i _)
  · intro e hraise
    rw [hraise] at hi
    exact hi _ (Rely.refl i _)

/-! ## A publish whose reply is lost -/

/-- There is a run all of whose steps meet a condition. -/
def RunWithin [DecidableEq ι] (ok : Server ι → Label ι → Prop) (w w' : Network ι) : Prop :=
  ∃ ts, Run Network.Step w ts w' ∧ ∀ t ∈ ts, ok t.1.shared t.2.1

/-- What call `i` does within the condition. -/
abbrev doesWithin [DecidableEq ι] (ok : Server ι → Label ι → Prop) (i : ι) :
    Exec PolicyCmd PolicyCmd.Reply PolicyExc (Server ι) :=
  Exec.within (Server.does i) fun s c a => ok s (.command i c a)

section RunWithin

variable [DecidableEq ι] {ok : Server ι → Label ι → Prop} {a b c : Network ι}

theorem RunWithin.trans (h : RunWithin ok a b) (h' : RunWithin ok b c) : RunWithin ok a c := by
  obtain ⟨ts, hrun, hok⟩ := h
  obtain ⟨us, hrun', hok'⟩ := h'
  exact ⟨_, hrun.append hrun', fun t ht => (List.mem_append.mp ht).elim (hok t) (hok' t)⟩

theorem RunWithin.step {l : Label ι} (h : a.Step l b) (hok : ok a.shared l) : RunWithin ok a b :=
  ⟨_, .tail .refl h, List.forall_mem_cons.mpr ⟨hok, by simp⟩⟩

theorem RunWithin.mono {ok' : Server ι → Label ι → Prop} (h : RunWithin ok a b)
    (himp : ∀ s l, ok s l → ok' s l) : RunWithin ok' a b := by
  obtain ⟨ts, hrun, hok⟩ := h
  exact ⟨ts, hrun, fun t ht => himp _ _ (hok t ht)⟩

/-- What a call does alone, the network can do. -/
theorem RunWithin.commands (i : ι) {p q : Pm PublishResult} {s s' : Server ι}
    {threads : ι → Pm PublishResult} (hp : threads i = p)
    (h : Prog.Steps (doesWithin ok i) p s q s') :
    RunWithin ok ⟨s, threads⟩ ⟨s', Function.update threads i q⟩ := by
  induction h generalizing threads with
  | refl =>
    rw [← hp, Function.update_eq_self]
    exact ⟨[], .refl, by simp⟩
  | @cmd c k v _ _ s₁ _ hx _ ih =>
    have hnext : Function.update threads i (k v) i = k v := Function.update_self ..
    have hrest := ih hnext
    rw [Function.update_idem] at hrest
    exact RunWithin.trans (.step (.command hp hx.2) hx.1) hrest

end RunWithin

section LostReply

variable [DecidableEq ι] {i : ι} {s : Server ι} {args : CommitArgs} {now : Time}
  {d' : PolicyStoreDocument}

/-- The message of a lost reply. -/
abbrev requestFailed : PolicyExc :=
  .repositoryUnavailable "Kubernetes policy ConfigMap request failed"

/-- Up to a write that the server handles without the caller being told. -/
theorem steps_lost_reply {s' : Server ι}
    (hbase : args.baseVersion = s.document.activeVersion)
    (hb : buildDocument args s.document now = .ok d') (hfailed : s.failed i = false)
    (hs : (s.answerLoad i).Handles i d' s.revision .httpError s') :
    Prog.Steps (doesWithin Timely i) (commit args) s
      (written args ⟨s.document, s.revision⟩ d' (.error requestFailed)) (s'.fail i) := by
  rw [commit_eq]
  refine .cmd (v := .ok ⟨s.document, s.revision⟩)
    ⟨fun h => absurd (hfailed.symm.trans h) (by simp), rfl, rfl⟩ ?_
  simp only [Prog.onReply_ok, hbase, ne_eq, not_true_eq_false, if_false]
  refine .cmd (v := .ok now) ⟨trivial, rfl⟩ ?_
  simp only [Prog.onReply_ok, hb]
  exact .cmd (v := .error requestFailed) ⟨trivial, .httpError, s', rfl, hs, rfl⟩ .refl

/-- The reload shows the write. -/
theorem steps_reconciled (args : CommitArgs) (snapshot : RepositorySnapshot)
    (hdoc : s.document = d') (hown : ∀ d, (some i, d) ∈ s.commits → d = d') :
    Prog.Steps (doesWithin Timely i) (written args snapshot d' (.error requestFailed)) s
      (.ret (args.result d'.active [])) (s.answerLoad i) := by
  subst hdoc
  refine .cmd (v := .ok ⟨s.document, s.revision⟩) ⟨fun _ => hown, rfl, rfl⟩ ?_
  refine .cmd (v := .ok ()) ⟨trivial, rfl⟩ ?_
  simp only [Prog.onReply_ok, if_true, finishCommit_eq]
  exact .cmd (v := .ok ()) ⟨trivial, rfl⟩ (.cmd (v := .ok ()) ⟨trivial, rfl⟩
    (.cmd (v := .ok ()) ⟨trivial, rfl⟩ .refl))

/-- The reload shows another document. -/
theorem steps_overtaken (args : CommitArgs) (snapshot : RepositorySnapshot)
    (hdoc : s.document ≠ d') (hrev : s.revision ≠ snapshot.revision) :
    Prog.Steps (doesWithin (fun _ _ => True) i)
      (written args snapshot d' (.error requestFailed)) s
      (.raise (.policyConflictError "a different policy state was committed concurrently"))
      (s.answerLoad i) := by
  refine .cmd (v := .ok ⟨s.document, s.revision⟩) ⟨trivial, rfl, rfl⟩ ?_
  refine .cmd (v := .ok ()) ⟨trivial, rfl⟩ ?_
  simp only [Prog.onReply_ok, if_neg hdoc, hrev, false_and, if_false]
  exact .cmd (v := .ok ()) ⟨trivial, rfl⟩ (.cmd (v := .ok ()) ⟨trivial, rfl⟩ .refl)

end LostReply

/-- A publish whose write is applied after its caller has seen it fail, and before the reload. -/
theorem outcome_tells_truth_late : ∃ (ts : _) (w : Network Unit), Run Network.Step
      (Network.start seedDocument 1 fun _ => .publish 1 exampleDraft "v2" "policy-admin") ts w ∧
    ∃ result, w.threads () = .ret result ∧ ∃ writer d, (writer, d) ∈ w.shared.commits ∧
      Recorded (.publish 1 exampleDraft "v2" "policy-admin") result d := by
  obtain ⟨d₂, hb₂, -⟩ := buildDocument_ok ⟨1, exampleDraft, "v2", "policy-admin", none⟩
    seedDocument 0 (by decide) (by decide) (by simp)
  have hwrite : RunWithin Timely (Network.start seedDocument 1 fun _ : Unit =>
      .publish 1 exampleDraft "v2" "policy-admin") _ :=
    .commands () rfl (steps_lost_reply rfl hb₂ rfl
      (.late (fun _ h => by cases h) (fun _ h => by cases h)))
  have hdeliver := hwrite.trans (.step (.deliver (i := ()) rfl) rfl)
  have hreload := hdeliver.trans (.commands () rfl (steps_reconciled _ _ rfl fun d hd => ?_))
  · obtain ⟨ts, hrun, hok⟩ := hreload
    exact ⟨ts, _, hrun, _, rfl, (outcome_tells_truth hrun hok ()).1 _ rfl⟩
  · simpa [Server.start, Server.answerLoad, Server.delay, Server.fail, Server.commit,
      Server.settle] using hd

/-- **A publish that committed raises a conflict.** The write takes effect, its reply is lost,
and another writer commits on top before the reload: the call says that a different state was
committed, and its own record is in the history. -/
theorem committed_publish_conflicts : ∃ (ts : _) (w : Network Unit) (d : PolicyStoreDocument),
    Run Network.Step
      (Network.start seedDocument 1 fun _ => .publish 1 exampleDraft "v2" "policy-admin") ts w ∧
    w.threads () =
      .raise (.policyConflictError "a different policy state was committed concurrently") ∧
    (some (), d) ∈ w.shared.commits ∧ d.active.changeNote = "v2" := by
  obtain ⟨d₂, hb₂, hext₂⟩ := buildDocument_ok ⟨1, exampleDraft, "v2", "policy-admin", none⟩
    seedDocument 0 (by decide) (by decide) (by simp)
  obtain ⟨d₃, -, hext₃⟩ := buildDocument_ok ⟨2, exampleDraft, "v3", "another-admin", none⟩
    d₂ 0 (by decide) (by decide) (by simp)
  have hne : d₃ ≠ d₂ := fun he => by
    have hv := hext₃.activeVersion
    rw [he] at hv
    omega
  have hwrite : RunWithin Timely (Network.start seedDocument 1 fun _ : Unit =>
      .publish 1 exampleDraft "v2" "policy-admin") _ :=
    .commands () rfl (steps_lost_reply rfl hb₂ rfl (.applied rfl fun _ h => by cases h))
  have hother : RunWithin Timely _ _ := hwrite.trans (.step (l := .commit d₃) .commit trivial)
  have hreload := (hother.mono fun _ _ _ => trivial).trans
    (.commands () rfl (steps_overtaken _ _ hne (show 3 ≠ 1 by decide)))
  obtain ⟨ts, hrun, -⟩ := hreload
  refine ⟨ts, _, d₂, hrun, rfl, ?_, hext₂.changeNote⟩
  simp [Server.start, Server.answerLoad, Server.fail, Server.commit]

end PolyGate.Automation.Durability
