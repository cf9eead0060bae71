import PolyGate.Automation.AdminPage
import PolyGate.Automation.Policy.NextDocument
import PolyGate.Automation.PolicyJson
import PolyGate.Lib.Run

/-!
# `Automation/AdminRuns.lean` — what the policy editor offers to publish has been checked

Of the functions of the page that await a reply, only `init` sets no `busyAction`. So at most one
other is under way, and its reply can be told from a stale one by the revision alone — unless the
reply to `init` makes a new draft of revision 1 in between: `draft_unchecked` is such a run.
-/

namespace PolyGate.Automation.Admin

open Lib Ecma Web

/-- A visit to the page, with the events that made it. -/
abbrev VisitRun : Visit → List (Visit × AdminEvent × Visit) → Visit → Prop :=
  Run fun v e v' => v.step e = some v'

/-! ## What a reply does to the page -/

/-- The page as a policy has just been loaded into it. -/
structure Renewed (p p' : AdminPage) : Prop where
  validatedRevision : p'.validatedRevision = none
  previewedRevision : p'.previewedRevision = none
  busyAction : p'.busyAction = p.busyAction

/-- The reply brings a policy. -/
def Brings (reply : Reply) : Prop := (reply.value.member "policy").isSome = true

/-- A 304 leaves the page as it was. Otherwise the reply brings a policy, and nothing counts as
checked. -/
theorem loadActive_eq_ok {p p' : AdminPage} {reply : Reply} (h : p.loadActive reply = .ok p') :
    p' = p ∨ Renewed p p' ∧ Brings reply := by
  unfold AdminPage.loadActive at h
  split at h
  · cases h
  · obtain rfl := Except.ok.inj h
    exact Or.inl rfl
  · split at h
    · next hpolicy =>
      obtain rfl := Except.ok.inj h
      exact Or.inr ⟨⟨rfl, rfl, rfl⟩, Option.isSome_iff_exists.mpr ⟨_, hpolicy⟩⟩
    · cases h

section Resume
variable {p : AdminPage} {reply : Reply}

/-- A function that loads goes on with the next reply, fails, or is done. -/
theorem resumeLoading_cases (p : AdminPage) (function : Loading) (stage : Stage) (reply : Reply) :
    (∃ p', (p' = p ∨ Renewed p p') ∧
      ∃ stage', p.resumeLoading function stage reply = (p', [.loading function stage'])) ∨
    (∃ status, p.resumeLoading function stage reply =
      ((p.loadingFailed function status).idle, [])) ∨
    p.resumeLoading function stage reply = ((p.loadingDone function).idle, []) := by
  cases stage with
  | request =>
    simp only [AdminPage.resumeLoading]
    split
    · exact Or.inr (Or.inl ⟨_, rfl⟩)
    · split
      · exact Or.inl ⟨p, Or.inl rfl, .active, rfl⟩
      · exact Or.inr (Or.inl ⟨0, rfl⟩)
  | active =>
    simp only [AdminPage.resumeLoading]
    split
    · next p' hload =>
      exact Or.inl ⟨p', (loadActive_eq_ok hload).imp_right (·.1), .history, rfl⟩
    · exact Or.inr (Or.inl ⟨_, rfl⟩)
  | history =>
    simp only [AdminPage.resumeLoading]
    split
    · exact Or.inr (Or.inr rfl)
    · exact Or.inr (Or.inl ⟨_, rfl⟩)

/-- The reply to `/validate` accepts the draft that was sent. -/
def Accepts (reply : Reply) : Prop :=
  strictEq (reply.value.property "valid") (.bool true) = true

instance instDecidableAccepts (reply : Reply) : Decidable (Accepts reply) :=
  inferInstanceAs (Decidable (_ = true))

/-- `valid` is read from an object. -/
theorem truthy_of_accepts (h : Accepts reply) : reply.value.truthy = true := by
  unfold Accepts at h
  cases hv : reply.value with
  | object fields => rfl
  | _ =>
    rw [hv] at h
    cases h

/-- The draft is refused, or the page has another draft by now, or the draft counts as validated. -/
theorem resumeValidate_cases (p : AdminPage) (revision : Nat) (reply : Reply) :
    (¬ Accepts reply ∧ ∃ status, p.resumeValidate revision reply =
      (p.validationFailed status).idle) ∨
    (revision ≠ p.draftRevision ∧ p.resumeValidate revision reply = p.idle) ∨
    Accepts reply ∧ revision = p.draftRevision ∧ p.resumeValidate revision reply =
      .idle { p with validation := reply.value, validatedRevision := some revision } := by
  unfold AdminPage.resumeValidate
  split
  · exact Or.inl ⟨Bool.false_ne_true, _, rfl⟩
  · split
    · next hrefused =>
      refine Or.inl ⟨fun haccepts => ?_, 200, rfl⟩
      rw [truthy_of_accepts haccepts, show strictEq _ _ = true from haccepts] at hrefused
      cases hrefused
    · next haccepted =>
      have haccepts : Accepts reply := by
        unfold Accepts
        simp only [Bool.or_eq_true, Bool.not_eq_true', not_or, Bool.not_eq_false] at haccepted
        exact haccepted.2
      split
      · next hstale => exact Or.inr (Or.inl ⟨hstale, rfl⟩)
      · next hcurrent => exact Or.inr (Or.inr ⟨haccepts, not_not.mp hcurrent, rfl⟩)

/-- The same for a preview, which is one as long as it names its base version. -/
theorem resumePreview_cases (p : AdminPage) (revision : Nat) (reply : Reply) :
    (reply.value.member "base_version" = none ∧ ∃ status, p.resumePreview revision reply =
      (p.previewFailed status).idle) ∨
    (revision ≠ p.draftRevision ∧ p.resumePreview revision reply = p.idle) ∨
    (∃ version, reply.value.member "base_version" = some version) ∧ revision = p.draftRevision ∧
      p.resumePreview revision reply =
        .idle { p with preview := reply.value, previewedRevision := some revision } := by
  unfold AdminPage.resumePreview
  split
  · exact Or.inl ⟨rfl, _, rfl⟩
  · split
    · next hstale => exact Or.inr (Or.inl ⟨hstale, rfl⟩)
    · next hcurrent =>
      split
      · next version hversion =>
        exact Or.inr (Or.inr ⟨⟨version, hversion⟩, not_not.mp hcurrent, rfl⟩)
      · next hnull => exact Or.inl ⟨hnull, 0, rfl⟩

end Resume

/-! ## At most one other function is under way -/

section Pending
variable {α : Type} {p : α → Bool} {l : List α} {n : Nat} {a b : α}

/-- Taking out what the filter drops does not show. -/
theorem filter_eraseIdx_of_not (h : l[n]? = some a) (ha : p a = false) :
    (l.eraseIdx n).filter p = l.filter p := by
  induction l generalizing n with
  | nil => cases h
  | cons c l ih =>
    cases n with
    | zero =>
      obtain rfl := Option.some.inj h
      rw [List.eraseIdx_cons_zero, List.filter_cons_of_neg (by simp [ha])]
    | succ n =>
      rw [List.eraseIdx_cons_succ, List.filter_cons, List.filter_cons, ih h]

/-- Taking out the only one that it keeps leaves none. -/
theorem filter_eraseIdx_of_only (h : l[n]? = some a) (ha : p a = true) (hl : l.filter p = [b]) :
    (l.eraseIdx n).filter p = [] ∧ a = b := by
  induction l generalizing n with
  | nil => cases h
  | cons c l ih =>
    cases n with
    | zero =>
      obtain rfl := Option.some.inj h
      rw [List.filter_cons_of_pos ha] at hl
      exact ⟨(List.cons.inj hl).2, (List.cons.inj hl).1⟩
    | succ n =>
      rw [List.eraseIdx_cons_succ]
      cases hc : p c with
      | true =>
        rw [List.filter_cons_of_pos hc] at hl
        have hnone := List.filter_eq_nil_iff.mp (List.cons.inj hl).2 a (List.mem_of_getElem? h)
        exact absurd ha hnone
      | false =>
        rw [List.filter_cons_of_neg (by simp [hc])] at hl ⊢
        exact ih h hl

end Pending

/-- The functions under way other than `init`. -/
def Visit.others (v : Visit) : List Task := v.tasks.filter fun task => task.action.isSome

/-- `busyAction` is the one of the function under way. -/
def Sequential (v : Visit) : Prop :=
  v.others = [] ∧ v.page.busyAction = none ∨
    ∃ task, v.others = [task] ∧ v.page.busyAction = task.action

section Sequential
variable {v v' : Visit} {p : AdminPage} {task : Task} {n : Nat} {reply : Reply}

theorem Sequential.setPage (h : Sequential v) (hbusy : p.busyAction = v.page.busyAction) :
    Sequential (v.setPage p) := by
  unfold Sequential
  rw [show (v.setPage p).page = p from rfl, hbusy]
  exact h

/-- The buttons that begin a function ask for `busyAction` to be null, and then nobody else is under
way. -/
theorem Sequential.nobody (h : Sequential v) (hbusy : v.page.busyAction = none) :
    v.others = [] := by
  rcases h with h | ⟨task, hothers, haction⟩
  · exact h.1
  · have hmem : task ∈ v.others := hothers ▸ List.mem_singleton_self task
    have hsome := (List.mem_filter.mp hmem).2
    rw [← haction, hbusy] at hsome
    cases hsome

theorem Sequential.begin (h : Sequential v) (hbusy : v.page.busyAction = none)
    (htask : task.action.isSome = true) : Sequential (v.begin (p.request task)) := by
  refine Or.inr ⟨task, ?_, rfl⟩
  show (v.tasks ++ [task]).filter _ = [task]
  have hnone : v.tasks.filter (·.action.isSome) = [] := h.nobody hbusy
  have hone : [task].filter (·.action.isSome) = [task] := List.filter_cons_of_pos htask
  rw [List.filter_append, hnone, hone]
  rfl

/-- A function either ends, and nothing is busy, or awaits its next reply. -/
theorem resume_ends (p : AdminPage) (htask : task.action.isSome = true) (reply : Reply) :
    (p.resume task reply).2 = [] ∧ (p.resume task reply).1.busyAction = none ∨
    ∃ function stage, task.action = some function.action ∧
      (p.resume task reply).2 = [.loading function stage] ∧
      (p.resume task reply).1.busyAction = p.busyAction := by
  cases task with
  | init => cases htask
  | loading function stage =>
    simp only [AdminPage.resume]
    rcases resumeLoading_cases p function stage reply with
      ⟨p', hp', stage', heq⟩ | ⟨status, heq⟩ | heq
    · rw [heq]
      refine Or.inr ⟨function, stage', rfl, rfl, ?_⟩
      rcases hp' with rfl | hp'
      · rfl
      · exact hp'.busyAction
    · rw [heq]
      exact Or.inl ⟨rfl, rfl⟩
    · rw [heq]
      exact Or.inl ⟨rfl, rfl⟩
  | validate revision draft =>
    refine Or.inl ⟨rfl, ?_⟩
    simp only [AdminPage.resume]
    rcases resumeValidate_cases p revision reply with
      ⟨-, status, heq⟩ | ⟨-, heq⟩ | ⟨-, -, heq⟩
    · rw [heq]
      rfl
    · rw [heq]
      rfl
    · rw [heq]
      rfl
  | preview revision draft =>
    refine Or.inl ⟨rfl, ?_⟩
    simp only [AdminPage.resume]
    rcases resumePreview_cases p revision reply with
      ⟨-, status, heq⟩ | ⟨-, heq⟩ | ⟨-, -, heq⟩
    · rw [heq]
      rfl
    · rw [heq]
      rfl
    · rw [heq]
      rfl
  | compare =>
    simp only [AdminPage.resume]
    split
    · exact Or.inl ⟨rfl, rfl⟩
    · exact Or.inl ⟨rfl, rfl⟩

/-- Who is under way after a reply: those before but the answered one, and what it goes on with. -/
theorem others_answer :
    (v.answer n task reply).others = (v.tasks.eraseIdx n).filter (·.action.isSome) ++
      (v.page.resume task reply).2.filter (·.action.isSome) :=
  List.filter_append _ _

/-- The reply to `init` leaves the others alone; a reply to another leaves nothing but a function
that goes on loading. -/
theorem Sequential.answer (h : Sequential v) (htask : v.tasks[n]? = some task) (reply : Reply) :
    Sequential (v.answer n task reply) ∧
    (task = .init ∧ (v.answer n task reply).others = v.others ∨
      task ≠ .init ∧ ∀ task' ∈ (v.answer n task reply).others,
        ∃ function stage, task' = .loading function stage) := by
  cases haction : task.action with
  | none =>
    obtain rfl : task = .init := by
      cases task with
      | init => rfl
      | _ => cases haction
    have hsame : (v.page.resume .init reply).2 = [] ∧
        (v.page.resume .init reply).1.busyAction = v.page.busyAction := by
      simp only [AdminPage.resume]
      split
      · next p' hload =>
        rcases loadActive_eq_ok hload with rfl | hload
        · exact ⟨rfl, rfl⟩
        · exact ⟨rfl, hload.1.busyAction⟩
      · exact ⟨rfl, rfl⟩
    have hothers : (v.answer n .init reply).others = v.others := by
      rw [others_answer, hsame.1, filter_eraseIdx_of_not htask rfl]
      exact List.append_nil _
    refine ⟨?_, Or.inl ⟨rfl, hothers⟩⟩
    unfold Sequential
    rw [hothers, show (v.answer n .init reply).page.busyAction = _ from hsame.2]
    exact h
  | some action =>
    have hsome : task.action.isSome = true := by rw [haction]; rfl
    obtain ⟨other, hothers, hbusy⟩ : ∃ other, v.others = [other] ∧
        v.page.busyAction = other.action := by
      rcases h with ⟨hnone, -⟩ | h
      -- nobody would be under way but the one answered
      · have hmem : task ∈ v.others := List.mem_filter.mpr ⟨List.mem_of_getElem? htask, hsome⟩
        rw [hnone] at hmem
        cases hmem
      · exact h
    obtain ⟨herase, rfl⟩ := filter_eraseIdx_of_only htask hsome hothers
    have hne : task ≠ .init := by
      rintro rfl
      cases hsome
    rcases resume_ends v.page hsome reply with ⟨hend, hidle⟩ | ⟨function, stage, hf, hnext, hsame⟩
    · have hnobody : (v.answer n task reply).others = [] := by
        rw [others_answer, herase, hend]
        rfl
      refine ⟨Or.inl ⟨hnobody, hidle⟩, Or.inr ⟨hne, fun task' h' => ?_⟩⟩
      rw [hnobody] at h'
      cases h'
    · have hone : (v.answer n task reply).others = [.loading function stage] := by
        rw [others_answer, herase, hnext]
        rfl
      refine ⟨Or.inr ⟨_, hone, ?_⟩, Or.inr ⟨hne, fun task' h' => ?_⟩⟩
      · exact hsame.trans (hbusy.trans hf)
      · rw [hone] at h'
        exact ⟨function, stage, List.mem_singleton.mp h'⟩

end Sequential

/-! ## What counts as checked -/

/-- The draft of a request sent at a revision is the draft of the page, as long as the revision is;
afterwards nothing counts as checked. -/
def Tracks (p : AdminPage) (mark : Option Nat) (revision : Nat) (draft : Value) : Prop :=
  revision = p.draftRevision ∧ draft = p.draft ∨ revision < p.draftRevision ∧ mark = none

/-- The functions that send the draft hold the revision it was sent at. -/
def Task.Tracked (p : AdminPage) : Task → Prop
  | .validate revision draft => Tracks p p.validatedRevision revision draft
  | .preview revision draft => Tracks p p.previewedRevision revision draft
  | _ => True

/-- What counts as checked is the draft of the page. -/
structure Checked (v : Visit) : Prop where
  validated : ∀ revision, v.page.validatedRevision = some revision →
    revision = v.page.draftRevision ∧ v.validated = some v.page.draft
  previewed : ∀ revision, v.page.previewedRevision = some revision →
    revision = v.page.draftRevision ∧ ∃ data, v.previewed = some (v.page.draft, data) ∧
      (v.page.preview = .null ∨ v.page.preview = data)
  tracked : ∀ task ∈ v.tasks, task.Tracked v.page

/-- The page has its draft, and may have forgotten what it knew of it. -/
structure Keeps (p p' : AdminPage) : Prop where
  draftRevision : p'.draftRevision = p.draftRevision
  draft : p'.draft = p.draft
  validatedRevision : p'.validatedRevision = none ∨ p'.validatedRevision = p.validatedRevision
  previewedRevision : p'.previewedRevision = none ∨
    p'.previewedRevision = p.previewedRevision ∧ (p'.preview = .null ∨ p'.preview = p.preview)

section Checked
variable {v v' : Visit} {p p' : AdminPage} {task : Task} {n : Nat} {reply : Reply}

theorem Keeps.refl (p : AdminPage) : Keeps p p := ⟨rfl, rfl, .inr rfl, .inr ⟨rfl, .inr rfl⟩⟩

/-- A 401 disconnects the page, and a 409 makes it forget what it knew of the draft. -/
theorem keeps_handleActionError (p : AdminPage) (status : Nat) :
    Keeps p (p.handleActionError status).idle := by
  unfold AdminPage.handleActionError
  split
  · exact ⟨rfl, rfl, .inr rfl, .inr ⟨rfl, .inr rfl⟩⟩
  · split
    · exact ⟨rfl, rfl, .inl rfl, .inl rfl⟩
    · exact ⟨rfl, rfl, .inr rfl, .inr ⟨rfl, .inr rfl⟩⟩

/-- A mark can only be lost. -/
theorem Tracks.keeps {mark mark' : Option Nat} {revision : Nat} {draft : Value}
    (h : Tracks p mark revision draft) (hkeeps : Keeps p p') (hmark : mark' = none ∨ mark' = mark) :
    Tracks p' mark' revision draft := by
  unfold Tracks
  rw [hkeeps.draftRevision, hkeeps.draft]
  -- a stale request stays stale
  rcases h with h | ⟨hstale, hnone⟩
  · exact Or.inl h
  · refine Or.inr ⟨hstale, ?_⟩
    rcases hmark with h | h
    · exact h
    · rw [h, hnone]

theorem Task.Tracked.keeps (h : task.Tracked p) (hkeeps : Keeps p p') : task.Tracked p' := by
  cases task with
  | validate revision draft => exact Tracks.keeps h hkeeps hkeeps.validatedRevision
  | preview revision draft =>
    exact Tracks.keeps h hkeeps (hkeeps.previewedRevision.imp_right (·.1))
  | _ => trivial

/-- The next draft has another revision. -/
theorem Task.Tracked.write (h : task.Tracked p) (hrevision : p'.draftRevision = p.draftRevision + 1)
    (hvalidated : p'.validatedRevision = none) (hpreviewed : p'.previewedRevision = none) :
    task.Tracked p' := by
  have hle : ∀ {mark revision draft}, Tracks p mark revision draft →
      revision < p'.draftRevision := by
    intro mark revision draft htracks
    rw [hrevision]
    rcases htracks with ⟨rfl, -⟩ | ⟨hlt, -⟩
    · exact Nat.lt_succ_self _
    · exact Nat.lt_succ_of_lt hlt
  cases task with
  | validate revision draft => exact Or.inr ⟨hle h, hvalidated⟩
  | preview revision draft => exact Or.inr ⟨hle h, hpreviewed⟩
  | _ => trivial

/-- A step that keeps the draft, and notes nothing, keeps what is checked. -/
theorem Checked.keeps (h : Checked v) (hkeeps : Keeps v.page v'.page)
    (hvalidated : v'.validated = v.validated) (hpreviewed : v'.previewed = v.previewed)
    (htracked : ∀ task ∈ v'.tasks, task.Tracked v'.page) : Checked v' where
  validated := by
    intro revision hmark
    rw [hkeeps.draftRevision, hkeeps.draft, hvalidated]
    rcases hkeeps.validatedRevision with hnone | hsame
    · rw [hnone] at hmark
      cases hmark
    · exact h.validated revision (hsame ▸ hmark)
  previewed := by
    intro revision hmark
    rw [hkeeps.draftRevision, hkeeps.draft, hpreviewed]
    rcases hkeeps.previewedRevision with hnone | ⟨hsame, hpreview⟩
    · rw [hnone] at hmark
      cases hmark
    · obtain ⟨hrevision, data, hdata, hshown⟩ := h.previewed revision (hsame ▸ hmark)
      refine ⟨hrevision, data, hdata, ?_⟩
      rcases hpreview with hnull | heq
      · exact Or.inl hnull
      · rw [heq]
        exact hshown
  tracked := htracked

/-- Nothing counts as checked where both marks are gone. -/
theorem checked_of_none (hvalidated : v.page.validatedRevision = none)
    (hpreviewed : v.page.previewedRevision = none)
    (htracked : ∀ task ∈ v.tasks, task.Tracked v.page) : Checked v where
  validated revision h := by
    rw [hvalidated] at h
    cases h
  previewed revision h := by
    rw [hpreviewed] at h
    cases h
  tracked := htracked

theorem Checked.setPage (h : Checked v) (hkeeps : Keeps v.page p) : Checked (v.setPage p) :=
  h.keeps hkeeps rfl rfl fun task htask => (h.tracked task htask).keeps hkeeps

/-- Sending a request keeps what is checked, if the draft that is sent is the page's. -/
theorem Checked.begin (h : Checked v) (htask : task.Tracked v.page) :
    Checked (v.begin (v.page.request task)) := by
  have hkeeps : Keeps v.page (v.page.request task).1 := ⟨rfl, rfl, .inr rfl, .inr ⟨rfl, .inr rfl⟩⟩
  refine h.keeps hkeeps rfl rfl fun task' hmem => ?_
  rcases List.mem_append.mp hmem with hold | hnew
  · exact (h.tracked task' hold).keeps hkeeps
  · rw [List.mem_singleton.mp hnew]
    exact htask.keeps hkeeps

theorem keeps_loadingFailed (p : AdminPage) (function : Loading) (status : Nat) :
    Keeps p (p.loadingFailed function status).idle := by
  cases function with
  | connect => exact ⟨rfl, rfl, .inr rfl, .inr ⟨rfl, .inr rfl⟩⟩
  | reload | publish | rollback => exact keeps_handleActionError p status

theorem keeps_loadingDone (p : AdminPage) (function : Loading) :
    Keeps p (p.loadingDone function).idle := by
  cases function with
  | connect | reload | publish | rollback => exact ⟨rfl, rfl, .inr rfl, .inr ⟨rfl, .inr rfl⟩⟩

/-- Only what is busy is tracked. -/
theorem tracked_of_others (h : ∀ task ∈ v.others, task.Tracked p) :
    ∀ task ∈ v.tasks, task.Tracked p := by
  intro task hmem
  cases task with
  | init => trivial
  | _ => exact h _ (List.mem_filter.mpr ⟨hmem, rfl⟩)

/-- The reply to `init` brings a policy while a validation or a preview is under way. -/
def Overtakes (v : Visit) : AdminEvent → Prop
  | .reply n reply => (v.tasks[n]?).map Task.action = some none ∧ Brings reply ∧
    (v.page.busyAction = some .validate ∨ v.page.busyAction = some .preview)
  | _ => False

/-- The reply to `init`. Nothing is checked of the policy it brings, and no request for the former
draft is under way. -/
theorem answerInit_checked (h : Checked v) (hseq : Sequential v)
    (htask : v.tasks[n]? = some .init) (hok : ¬ Overtakes v (.reply n reply))
    (hothers : (v.answer n .init reply).others = v.others) :
    Checked (v.answer n .init reply) := by
  have hsame : ∀ task ∈ (v.answer n .init reply).others, task.Tracked v.page := by
    intro task hmem
    rw [hothers] at hmem
    exact h.tracked task (List.mem_filter.mp hmem).1
  have hpage : (v.answer n .init reply).page = (v.page.resume .init reply).1 := rfl
  simp only [AdminPage.resume] at hpage
  split at hpage
  · next p' hload =>
    rcases loadActive_eq_ok hload with rfl | ⟨hrenewed, hbrings⟩
    · exact h.keeps (hpage ▸ Keeps.refl _) rfl rfl (tracked_of_others (hpage ▸ hsame))
    · refine checked_of_none (hpage ▸ hrenewed.validatedRevision)
        (hpage ▸ hrenewed.previewedRevision) (tracked_of_others fun task hmem => ?_)
      -- a validation or a preview under way would be overtaken
      rw [hothers] at hmem
      rcases hseq with ⟨hnone, -⟩ | ⟨other, hone, hbusy⟩
      · rw [hnone] at hmem
        cases hmem
      · rw [hone] at hmem
        obtain rfl := List.mem_singleton.mp hmem
        have hinit : (v.tasks[n]?).map Task.action = some none := by
          rw [htask]
          rfl
        cases task with
        | validate revision draft => exact absurd ⟨hinit, hbrings, Or.inl hbusy⟩ hok
        | preview revision draft => exact absurd ⟨hinit, hbrings, Or.inr hbusy⟩ hok
        | _ => trivial
  · exact h.keeps (hpage ▸ Keeps.refl _) rfl rfl (tracked_of_others (hpage ▸ hsame))

/-- A reply to a function that loads. -/
theorem answerLoading_checked (h : Checked v) {function : Loading} {stage : Stage}
    (htracked : ∀ task ∈ (v.answer n (.loading function stage) reply).tasks,
      task.Tracked (v.answer n (.loading function stage) reply).page) :
    Checked (v.answer n (.loading function stage) reply) := by
  have hpage : (v.answer n (.loading function stage) reply).page =
    (v.page.resumeLoading function stage reply).1 := rfl
  rcases resumeLoading_cases v.page function stage reply with
    ⟨p', hp', stage', heq⟩ | ⟨status, heq⟩ | heq
  · rw [heq] at hpage
    rcases hp' with rfl | hp'
    · exact h.keeps (hpage ▸ Keeps.refl _) rfl rfl htracked
    · exact checked_of_none (hpage ▸ hp'.validatedRevision) (hpage ▸ hp'.previewedRevision) htracked
  · rw [heq] at hpage
    exact h.keeps (hpage ▸ keeps_loadingFailed v.page function status) rfl rfl htracked
  · rw [heq] at hpage
    exact h.keeps (hpage ▸ keeps_loadingDone v.page function) rfl rfl htracked

theorem keeps_validationFailed (p : AdminPage) (status : Nat) :
    Keeps p (p.validationFailed status).idle := by
  have hkeeps := keeps_handleActionError { p with validation := .null, validatedRevision := none }
    status
  exact ⟨hkeeps.draftRevision, hkeeps.draft, Or.inl (hkeeps.validatedRevision.elim id id),
    hkeeps.previewedRevision⟩

theorem keeps_previewFailed (p : AdminPage) (status : Nat) :
    Keeps p (p.previewFailed status).idle := by
  have hkeeps := keeps_handleActionError { p with preview := .null, previewedRevision := none }
    status
  exact ⟨hkeeps.draftRevision, hkeeps.draft, hkeeps.validatedRevision,
    Or.inl (hkeeps.previewedRevision.elim id (·.1))⟩

theorem answer_validated :
    (v.answer n task reply).validated = (v.noted task reply).validated := rfl

theorem answer_previewed :
    (v.answer n task reply).previewed = (v.noted task reply).previewed := rfl

/-- A reply to `/validate`. Its draft is compared by the revision, and that suffices since the draft
is tracked. -/
theorem answerValidate_checked (h : Checked v) {revision : Nat} {draft : Value}
    (htracks : Tracks v.page v.page.validatedRevision revision draft)
    (htracked : ∀ task ∈ (v.answer n (.validate revision draft) reply).tasks,
      task.Tracked (v.answer n (.validate revision draft) reply).page) :
    Checked (v.answer n (.validate revision draft) reply) := by
  have hpage : (v.answer n (.validate revision draft) reply).page =
    v.page.resumeValidate revision reply := rfl
  have hnoted : v.noted (.validate revision draft) reply =
    if Accepts reply then { v with validated := some draft } else v := rfl
  rcases resumeValidate_cases v.page revision reply with
    ⟨hrefused, status, heq⟩ | ⟨hstale, heq⟩ | ⟨haccepts, hcurrent, heq⟩
  · rw [if_neg hrefused] at hnoted
    rw [heq] at hpage
    exact h.keeps (hpage ▸ keeps_validationFailed v.page status)
      (answer_validated.trans (congrArg Visit.validated hnoted))
      (answer_previewed.trans (congrArg Visit.previewed hnoted)) htracked
  · have hnone : v.page.validatedRevision = none := by
      rcases htracks with hcurrent | hold
      · exact absurd hcurrent.1 hstale
      · exact hold.2
    have hpreviewed : (v.noted (.validate revision draft) reply).previewed = v.previewed := by
      rw [hnoted]
      split
      · rfl
      · rfl
    rw [heq] at hpage
    refine ⟨fun mark hmark => ?_, fun mark hmark => ?_, htracked⟩
    · rw [hpage, show v.page.idle.validatedRevision = _ from hnone] at hmark
      cases hmark
    · rw [hpage] at hmark ⊢
      rw [answer_previewed, hpreviewed]
      exact h.previewed mark hmark
  · obtain rfl : draft = v.page.draft := by
      rcases htracks with hcurrent | hold
      · exact hcurrent.2
      · exact absurd hcurrent hold.1.ne
    rw [if_pos haccepts] at hnoted
    rw [heq] at hpage
    refine ⟨fun mark hmark => ?_, fun mark hmark => ?_, htracked⟩
    · rw [hpage] at hmark ⊢
      obtain rfl := Option.some.inj hmark
      exact ⟨hcurrent, congrArg Visit.validated hnoted⟩
    · rw [hpage] at hmark ⊢
      rw [answer_previewed, congrArg Visit.previewed hnoted]
      exact h.previewed mark hmark

/-- A reply to `/preview`, in the same way. -/
theorem answerPreview_checked (h : Checked v) {revision : Nat} {draft : Value}
    (htracks : Tracks v.page v.page.previewedRevision revision draft)
    (htracked : ∀ task ∈ (v.answer n (.preview revision draft) reply).tasks,
      task.Tracked (v.answer n (.preview revision draft) reply).page) :
    Checked (v.answer n (.preview revision draft) reply) := by
  have hpage : (v.answer n (.preview revision draft) reply).page =
    v.page.resumePreview revision reply := rfl
  have hvalidated : (v.answer n (.preview revision draft) reply).validated = v.validated := by
    rw [answer_validated, Visit.noted]
    split
    · rfl
    · rfl
  rcases resumePreview_cases v.page revision reply with
    ⟨hnull, status, heq⟩ | ⟨hstale, heq⟩ | ⟨⟨version, hversion⟩, hcurrent, heq⟩
  · have hpreviewed : (v.noted (.preview revision draft) reply).previewed = v.previewed := by
      simp only [Visit.noted, hnull]
    rw [heq] at hpage
    exact h.keeps (hpage ▸ keeps_previewFailed v.page status) hvalidated hpreviewed htracked
  · have hnone : v.page.previewedRevision = none := by
      rcases htracks with hcurrent | hold
      · exact absurd hcurrent.1 hstale
      · exact hold.2
    rw [heq] at hpage
    refine ⟨fun mark hmark => ?_, fun mark hmark => ?_, htracked⟩
    · rw [hpage] at hmark ⊢
      rw [hvalidated]
      exact h.validated mark hmark
    · rw [hpage, show v.page.idle.previewedRevision = _ from hnone] at hmark
      cases hmark
  · obtain rfl : draft = v.page.draft := by
      rcases htracks with hcurrent | hold
      · exact hcurrent.2
      · exact absurd hcurrent hold.1.ne
    have hpreviewed : (v.noted (.preview revision v.page.draft) reply).previewed =
        some (v.page.draft, reply.value) := by
      simp only [Visit.noted, hversion]
    rw [heq] at hpage
    refine ⟨fun mark hmark => ?_, fun mark hmark => ?_, htracked⟩
    · rw [hpage] at hmark ⊢
      rw [hvalidated]
      exact h.validated mark hmark
    · rw [hpage] at hmark ⊢
      obtain rfl := Option.some.inj hmark
      exact ⟨hcurrent, reply.value, hpreviewed, Or.inr rfl⟩

/-- Every reply, given that at most one function other than `init` is under way. -/
theorem answer_checked (h : Checked v) (hseq : Sequential v) (htask : v.tasks[n]? = some task)
    (hok : ¬ Overtakes v (.reply n reply)) : Checked (v.answer n task reply) := by
  obtain ⟨-, ⟨rfl, hothers⟩ | ⟨hne, hothers⟩⟩ := hseq.answer htask reply
  · exact answerInit_checked h hseq htask hok hothers
  · have htracked : ∀ task' ∈ (v.answer n task reply).tasks,
        task'.Tracked (v.answer n task reply).page := by
      refine tracked_of_others fun task' hmem => ?_
      obtain ⟨function, stage, rfl⟩ := hothers task' hmem
      trivial
    have hbefore := h.tracked task (List.mem_of_getElem? htask)
    cases task with
    | init => exact absurd rfl hne
    | loading function stage => exact answerLoading_checked h htracked
    | validate revision draft => exact answerValidate_checked h hbefore htracked
    | preview revision draft => exact answerPreview_checked h hbefore htracked
    | compare =>
      have hkeeps : Keeps v.page (v.page.resume .compare reply).1 := by
        simp only [AdminPage.resume]
        split
        · exact keeps_handleActionError v.page _
        · exact ⟨rfl, rfl, .inr rfl, .inr ⟨rfl, .inr rfl⟩⟩
      exact h.keeps hkeeps rfl rfl htracked

/-- Writing a field either changes nothing or makes a draft of the next revision, unchecked. -/
theorem writeField_cases (p : AdminPage) (field : Field) (value : Value) :
    p.writeField field value = p ∨
    ((p.writeField field value).draftRevision = p.draftRevision + 1 ∧
      (p.writeField field value).validatedRevision = none ∧
      (p.writeField field value).previewedRevision = none ∧
      (p.writeField field value).busyAction = p.busyAction) := by
  unfold AdminPage.writeField
  split
  · exact Or.inl rfl
  · split
    · exact Or.inl rfl
    · exact Or.inr ⟨rfl, rfl, rfl, rfl⟩

theorem writeField_checked (h : Checked v) (field : Field) (value : Value) :
    Checked (v.setPage (v.page.writeField field value)) := by
  rcases writeField_cases v.page field value with hsame | ⟨hrevision, hvalidated, hpreviewed, -⟩
  · rw [hsame]
    exact h.setPage (Keeps.refl _)
  · exact checked_of_none hvalidated hpreviewed fun task htask =>
      (h.tracked task htask).write hrevision hvalidated hpreviewed

end Checked

/-! ## Every run -/

/-- One function at a time, and what counts as checked was. -/
structure Sound (v : Visit) : Prop where
  sequential : Sequential v
  checked : Checked v

section Runs
variable {v v' : Visit} {p : AdminPage} {task : Task}

theorem Sound.setPage (h : Sound v) (hbusy : p.busyAction = v.page.busyAction)
    (hkeeps : Keeps v.page p) : Sound (v.setPage p) :=
  ⟨h.sequential.setPage hbusy, h.checked.setPage hkeeps⟩

theorem Sound.begin (h : Sound v) (hbusy : v.page.busyAction = none)
    (htask : task.action.isSome = true) (htracked : task.Tracked v.page) :
    Sound (v.begin (v.page.request task)) :=
  ⟨h.sequential.begin hbusy htask, h.checked.begin htracked⟩

/-- At first only `init` is under way. -/
theorem sound_start : Sound .start where
  sequential := Or.inl ⟨rfl, rfl⟩
  checked := checked_of_none rfl rfl fun task htask => by
    obtain rfl := List.mem_singleton.mp htask
    trivial

theorem begin_nil : v.begin (p, []) = v.setPage p :=
  congrArg (Visit.mk p · v.validated v.previewed) (List.append_nil v.tasks)

/-- Every button that begins a function is disabled while another is under way. -/
theorem idle_of_guard {b : Bool} (h : (b && decide (p.busyAction = none)) = true) :
    p.busyAction = none :=
  of_decide_eq_true (Bool.and_eq_true_iff.mp h).2

theorem idle_of_canValidate (h : p.canValidate = true) : p.busyAction = none := by
  simp only [AdminPage.canValidate, Bool.and_eq_true, decide_eq_true_eq] at h
  exact h.1.1.2

theorem idle_of_canPreview (h : p.canPreview = true) : p.busyAction = none := by
  simp only [AdminPage.canPreview, AdminPage.canPreviewRevision, Bool.and_eq_true,
    decide_eq_true_eq] at h
  exact h.2.1.1.1

theorem idle_of_canPublish (h : p.canPublish = true) : p.busyAction = none := by
  simp only [AdminPage.canPublish, AdminPage.canPublishRevision, Bool.and_eq_true,
    decide_eq_true_eq] at h
  exact h.2.1.1.1.1.1

theorem idle_of_canRollback (h : p.canRollback = true) : p.busyAction = none := by
  simp only [AdminPage.canRollback, Bool.and_eq_true, decide_eq_true_eq] at h
  exact h.1.2

/-- Validating begins with the checks of the fields, which may stop it. -/
theorem validate_sound (h : Sound v) (hbusy : v.page.busyAction = none) :
    Sound (v.begin v.page.validateDraft) := by
  have hchecked : Sound (v.setPage
      { v.page with localFieldErrors := validateLocalFields v.page.draft }) :=
    h.setPage rfl ⟨rfl, rfl, .inr rfl, .inr ⟨rfl, .inr rfl⟩⟩
  simp only [AdminPage.validateDraft]
  split
  · rw [begin_nil]
    exact hchecked
  · have htracked : Task.Tracked { v.page with localFieldErrors := _ }
        (.validate v.page.draftRevision v.page.draft) := Or.inl ⟨rfl, rfl⟩
    exact hchecked.begin hbusy rfl htracked

/-- What a reply to `init` does not overtake stays sound. -/
theorem step_sound {e : AdminEvent} (h : Sound v) (hok : ¬ Overtakes v e)
    (hstep : v.step e = some v') : Sound v' := by
  cases e with
  | connect =>
    obtain ⟨hguard, hstep⟩ := Option.ite_none_right_eq_some.mp hstep
    obtain rfl := Option.some.inj hstep
    exact h.begin (idle_of_guard hguard) rfl trivial
  | reload =>
    obtain ⟨hguard, hstep⟩ := Option.ite_none_right_eq_some.mp hstep
    obtain rfl := Option.some.inj hstep
    exact h.begin (idle_of_guard hguard) rfl trivial
  | disconnect =>
    obtain ⟨hguard, hstep⟩ := Option.ite_none_right_eq_some.mp hstep
    obtain rfl := Option.some.inj hstep
    exact h.setPage rfl ⟨rfl, rfl, .inr rfl, .inr ⟨rfl, .inl rfl⟩⟩
  | writeField field entered =>
    obtain ⟨-, hstep⟩ := Option.ite_none_right_eq_some.mp hstep
    obtain ⟨value, -, rfl⟩ := Option.map_eq_some_iff.mp hstep
    refine ⟨h.sequential.setPage ?_, writeField_checked h.checked field value⟩
    rcases writeField_cases v.page field value with hsame | ⟨-, -, -, hbusy⟩
    · rw [hsame]
    · exact hbusy
  | updateChangeNote note =>
    obtain ⟨-, hstep⟩ := Option.ite_none_right_eq_some.mp hstep
    obtain rfl := Option.some.inj hstep
    exact h.setPage rfl ⟨rfl, rfl, .inr rfl, .inr ⟨rfl, .inr rfl⟩⟩
  | updateRollbackNote note =>
    obtain ⟨-, hstep⟩ := Option.ite_none_right_eq_some.mp hstep
    obtain rfl := Option.some.inj hstep
    exact h.setPage rfl ⟨rfl, rfl, .inr rfl, .inr ⟨rfl, .inr rfl⟩⟩
  | validate =>
    obtain ⟨hguard, hstep⟩ := Option.ite_none_right_eq_some.mp hstep
    obtain rfl := Option.some.inj hstep
    exact validate_sound h (idle_of_canValidate hguard)
  | preview =>
    obtain ⟨hguard, hstep⟩ := Option.ite_none_right_eq_some.mp hstep
    obtain rfl := Option.some.inj hstep
    rw [AdminPage.previewDraft, if_pos hguard]
    exact h.begin (idle_of_canPreview hguard) rfl (Or.inl ⟨rfl, rfl⟩)
  | publish =>
    obtain ⟨hguard, hstep⟩ := Option.ite_none_right_eq_some.mp hstep
    obtain rfl := Option.some.inj hstep
    rw [AdminPage.publishDraft, if_pos hguard]
    exact h.begin (idle_of_canPublish hguard) rfl trivial
  | compare =>
    obtain ⟨hguard, hstep⟩ := Option.ite_none_right_eq_some.mp hstep
    obtain rfl := Option.some.inj hstep
    exact h.begin (idle_of_guard hguard) rfl trivial
  | prepareRollback record =>
    obtain ⟨-, hstep⟩ := Option.ite_none_right_eq_some.mp hstep
    obtain rfl := Option.some.inj hstep
    exact h.setPage rfl ⟨rfl, rfl, .inr rfl, .inr ⟨rfl, .inr rfl⟩⟩
  | cancelRollback =>
    obtain ⟨-, hstep⟩ := Option.ite_none_right_eq_some.mp hstep
    obtain rfl := Option.some.inj hstep
    exact h.setPage rfl ⟨rfl, rfl, .inr rfl, .inr ⟨rfl, .inr rfl⟩⟩
  | rollback =>
    obtain ⟨hguard, hstep⟩ := Option.ite_none_right_eq_some.mp hstep
    obtain rfl := Option.some.inj hstep
    have hcan := (Bool.and_eq_true_iff.mp hguard).2
    rw [AdminPage.rollbackPolicy, if_pos hcan]
    exact h.begin (idle_of_canRollback hcan) rfl trivial
  | reply n r =>
    obtain ⟨task, htask, rfl⟩ := Option.map_eq_some_iff.mp hstep
    exact ⟨(h.sequential.answer htask r).1, answer_checked h.checked h.sequential htask hok⟩

/-- **The editor offers to publish what was checked**: in a run in which no reply to `init` brings
a policy while a validation or a preview is under way, a draft that can be published is the one of
the last `/validate` reply that accepted a draft and of the last `/preview` reply, and that reply
was made against the version the page is based on. -/
theorem canPublish_checked {ts : List (Visit × AdminEvent × Visit)} (h : VisitRun .start ts v)
    (hok : ∀ t ∈ ts, ¬ Overtakes t.1 t.2.1) (hpublish : v.page.canPublish = true) :
    v.validated = some v.page.draft ∧ ∃ data, v.previewed = some (v.page.draft, data) ∧
      strictEq (data.property "base_version") v.page.baseVersion = true := by
  have hsound : Sound v :=
    (h.restrict (P := fun v e => ¬ Overtakes v e) hok).invariant (I := Sound) sound_start
      fun _ _ _ h hstep => step_sound h hstep.1 hstep.2
  simp only [AdminPage.canPublish, AdminPage.canPublishRevision, Bool.and_eq_true,
    decide_eq_true_eq, Bool.not_eq_true'] at hpublish
  obtain ⟨-, ⟨⟨⟨⟨-, hvalidated⟩, hpreviewed⟩, hpreview⟩, hversion⟩, -⟩ := hpublish
  refine ⟨(hsound.checked.validated _ hvalidated).2, ?_⟩
  obtain ⟨-, data, hdata, hshown⟩ := hsound.checked.previewed _ hpreviewed
  refine ⟨data, hdata, ?_⟩
  rcases hshown with hnull | hshown
  · rw [hnull] at hpreview
    cases hpreview
  · rw [← hshown]
    exact hversion

end Runs

/-! ## Two runs -/

instance instDecidableOvertakes (v : Visit) (e : AdminEvent) : Decidable (Overtakes v e) :=
  match e with
  | .reply _ _ => inferInstanceAs (Decidable (_ = some none ∧ (_ = true) ∧ (_ ∨ _)))
  | .connect | .reload | .disconnect | .writeField _ _ | .updateChangeNote _
  | .updateRollbackNote _ | .validate | .preview | .publish | .compare | .prepareRollback _
  | .cancelRollback | .rollback => inferInstanceAs (Decidable False)

/-- The run that some events make. -/
theorem run_of_events {v v' : Visit} {es : List AdminEvent} (h : es.foldlM Visit.step v = some v') :
    ∃ ts, VisitRun v ts v' := by
  induction es generalizing v with
  | nil =>
    obtain rfl := Option.some.inj h
    exact ⟨[], .refl⟩
  | cons e es ih =>
    obtain ⟨v₁, hstep, h⟩ := Option.bind_eq_some_iff.mp h
    obtain ⟨ts, hrun⟩ := ih h
    exact ⟨_, hrun.head hstep⟩

/-- An event that overtakes nothing. -/
def orderlyStep (v : Visit) (e : AdminEvent) : Option Visit :=
  if Overtakes v e then none else v.step e

theorem run_of_orderly {v v' : Visit} {es : List AdminEvent}
    (h : es.foldlM orderlyStep v = some v') :
    ∃ ts, VisitRun v ts v' ∧ ∀ t ∈ ts, ¬ Overtakes t.1 t.2.1 := by
  induction es generalizing v with
  | nil =>
    obtain rfl := Option.some.inj h
    exact ⟨[], .refl, fun _ ht => absurd ht List.not_mem_nil⟩
  | cons e es ih =>
    obtain ⟨v₁, hstep, h⟩ := Option.bind_eq_some_iff.mp h
    obtain ⟨hok, hstep⟩ := Option.ite_none_left_eq_some.mp hstep
    obtain ⟨ts, hrun, hts⟩ := ih h
    exact ⟨_, hrun.head hstep, List.forall_mem_cons.mpr ⟨hok, hts⟩⟩

/-- `result.data` of a reply to `loadActive`. -/
def activeData (version : ℚ) (policy : Value) : Value :=
  .object [(str "version", .number (.ofRat version)), (str "policy", policy)]

/-- The policy of the examples, as the service sends it. -/
def examplePolicy : Value := .ofJson exampleDraft.json

/-- The same with a hard budget. -/
def hardBudgetPolicy : Value :=
  (setAtPath examplePolicy ["gateway", "budget_mode"] (.string (str "hard"))).getD .null

def accepted : Reply := .data (.object [(str "valid", .bool true)])

def previewOf (version : ℚ) : Reply :=
  .data (.object [(str "base_version", .number (.ofRat version))])

/-- The reply to `init` comes before the draft is validated. -/
def orderlyVisit : List AdminEvent :=
  [.connect, .reply 0 (.data (activeData 1 examplePolicy)),
    .reply 0 (.data (activeData 1 examplePolicy)), .reply 0 (.data (.array [])),
    .writeField (selectField ["gateway", "budget_mode"] "Budget mode" ["soft", "hard"] false)
      (.choice (str "hard")),
    .validate, .reply 0 accepted, .preview, .reply 0 (previewOf 1), .updateChangeNote (js "n")]

/-- The reply to `init` brings another policy while the first one is validated. -/
def overtakenVisit : List AdminEvent :=
  [.connect, .reply 1 (.data (activeData 1 examplePolicy)), .reply 1 (.data (.array [])),
    .validate, .reply 0 (.data (activeData 2 hardBudgetPolicy)), .reply 0 accepted,
    .preview, .reply 0 (previewOf 2), .updateChangeNote (js "n")]

/-- What the two visits come to. -/
theorem visits_end :
    ((orderlyVisit.foldlM orderlyStep .start).any fun v => v.page.canPublish) = true ∧
    ((overtakenVisit.foldlM Visit.step .start).any fun v => v.page.canPublish &&
      (v.validated.bind stringify).any fun sent => some sent ≠ stringify v.page.draft) = true := by
  decide +kernel

theorem canPublish_checked_orderly : ∃ ts v, VisitRun .start ts v ∧
    (v.page.canPublish = true ∧ v.validated = some v.page.draft) := by
  obtain ⟨v, hv, hpublish⟩ := (Option.any_eq_true _ _).mp visits_end.1
  obtain ⟨ts, hrun, hok⟩ := run_of_orderly hv
  exact ⟨ts, v, hrun, hpublish, (canPublish_checked hrun hok hpublish).1⟩

/-- The page offers to publish a draft, and the last draft that `/validate` accepted is another. -/
theorem draft_unchecked : ∃ ts v, VisitRun .start ts v ∧ v.page.canPublish = true ∧
    ∃ draft, v.validated = some draft ∧ stringify draft ≠ stringify v.page.draft := by
  obtain ⟨v, hv, hcheck⟩ := (Option.any_eq_true _ _).mp visits_end.2
  obtain ⟨hpublish, hsent⟩ := Bool.and_eq_true_iff.mp hcheck
  obtain ⟨text, htext, hother⟩ := (Option.any_eq_true _ _).mp hsent
  obtain ⟨draft, hdraft, htext⟩ := Option.bind_eq_some_iff.mp htext
  obtain ⟨ts, hrun⟩ := run_of_events hv
  exact ⟨ts, v, hrun, hpublish, draft, hdraft, htext ▸ of_decide_eq_true hother⟩

end PolyGate.Automation.Admin
