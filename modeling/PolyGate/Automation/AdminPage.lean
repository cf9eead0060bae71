import PolyGate.Automation.PolicyFields
import PolyGate.Web.Conversations

/-!
# `Automation/AdminPage.lean` — the policy editor, its requests and their replies

`createPolicyAdminApp` of `automation/admin/policy-admin.js`, with the events that `index.html`
permits. A function that awaits a reply is cut there: what stands before the first `await` is
done at once and leaves a `Task`, and `resume` is the rest of the function up to the next `await`.

`init` is the one task that sets no `busyAction`.
-/

namespace PolyGate.Automation.Admin

open Lib Ecma Web

/-- `busyAction` -/
inductive BusyAction | connect | reload | validate | preview | publish | compare | rollback
  deriving DecidableEq

structure AdminPage where
  connected : Bool := false
  baseVersion : Value := .null
  draftRevision : Nat := 1
  validatedRevision : Option Nat := none
  previewedRevision : Option Nat := none
  draft : Value := .null
  validation : Value := .null
  preview : Value := .null
  changeNote : JsString := []
  busyAction : Option BusyAction := none
  localFieldErrors : FieldErrors := Dict.empty
  rollbackTarget : Value := .null
  rollbackNote : JsString := []

/-- What `apiRequest` comes to; `error` carries the status of the `ApiError`, 0 for a network
error. -/
inductive Reply
  | notModified
  | data (v : Value)
  | error (status : Nat)

/-- `result.data` -/
def Reply.value : Reply → Value
  | .data v => v
  | _ => .null

/-- The functions that load the workspace. -/
inductive Loading | connect | reload | publish | rollback
  deriving DecidableEq

/-- Where a function that loads the workspace awaits: its own request, the one of `loadActive` or
the one of `loadHistory`. -/
inductive Stage | request | active | history
  deriving DecidableEq

/-- A function that awaits a reply, with its local variables. `draft` is what the request holds a
clone of. -/
inductive Task
  | init
  | loading (function : Loading) (stage : Stage)
  | validate (revision : Nat) (draft : Value)
  | preview (revision : Nat) (draft : Value)
  | compare

def Loading.action : Loading → BusyAction
  | .connect => .connect
  | .reload => .reload
  | .publish => .publish
  | .rollback => .rollback

/-- The `busyAction` a task has set. -/
def Task.action : Task → Option BusyAction
  | .init => none
  | .loading function _ => some function.action
  | .validate _ _ => some .validate
  | .preview _ _ => some .preview
  | .compare => some .compare

namespace AdminPage

/-! ## Guards -/

def canValidate (p : AdminPage) : Bool :=
  p.connected && !strictEq p.draft .null && p.busyAction = none &&
    p.localFieldErrors.entries.isEmpty && localUrgencyOrderError p.draft = ""

def canPreviewRevision (p : AdminPage) : Bool :=
  p.busyAction = none && p.validatedRevision = some p.draftRevision &&
    !strictEq p.validation .null && strictEq (p.validation.property "valid") (.bool true)

def canPublishRevision (p : AdminPage) : Bool :=
  let noteLength := (jsTrim p.changeNote).length
  p.busyAction = none && p.validatedRevision = some p.draftRevision &&
    p.previewedRevision = some p.draftRevision && !strictEq p.preview .null &&
    strictEq (p.preview.property "base_version") p.baseVersion &&
    decide (1 ≤ noteLength ∧ noteLength ≤ 500)

def canPreview (p : AdminPage) : Bool := p.connected && p.canPreviewRevision

def canPublish (p : AdminPage) : Bool := p.connected && p.canPublishRevision

def canRollback (p : AdminPage) : Bool :=
  let length := (jsTrim p.rollbackNote).length
  !strictEq p.rollbackTarget .null && p.busyAction = none && decide (1 ≤ length ∧ length ≤ 500)

/-! ## What the functions do to the page -/

def invalidateRevisions (p : AdminPage) : AdminPage :=
  { p with
    draftRevision := p.draftRevision + 1
    validatedRevision := none
    previewedRevision := none
    validation := .null
    preview := .null }

/-- `loadActive(true)` from its reply on; the error is what it throws. -/
def loadActive (p : AdminPage) (reply : Reply) : Except Nat AdminPage :=
  match reply with
  | .error status => .error status
  | .notModified => .ok p
  | .data data => match data.member "version", data.member "policy" with
    | some version, some policy =>
      let draft := clone policy
      .ok { p with
        baseVersion := version
        draft := draft
        draftRevision := 1
        validatedRevision := none
        previewedRevision := none
        validation := .null
        preview := .null
        changeNote := []
        localFieldErrors := validateLocalFields draft
        rollbackTarget := .null }
    | _, _ => .error 0

/-- `loadHistory` from its reply on. It sorts by `version`, and reads it of no element where there
is only one. -/
def loadHistory (reply : Reply) : Except Nat Unit :=
  match reply with
  | .error status => .error status
  | _ => match reply.value with
    | .array elems =>
      if 1 < elems.length ∧ elems.any fun e => (e.member "version").isNone then .error 0
      else .ok ()
    | _ => .error 0

def handleActionError (p : AdminPage) (status : Nat) : AdminPage :=
  if status = 401 then { p with connected := false }
  else if status = 409 then
    { p with
      validatedRevision := none
      previewedRevision := none
      validation := .null
      preview := .null }
  else p

/-- `finally { this.busyAction = null; }` -/
def idle (p : AdminPage) : AdminPage := { p with busyAction := none }

/-- The `catch` of a function that loads the workspace. -/
def loadingFailed (p : AdminPage) (function : Loading) (status : Nat) : AdminPage :=
  match function with
  | .connect => { p with connected := false }
  | .reload | .publish | .rollback => p.handleActionError status

/-- What such a function does when all is loaded. -/
def loadingDone (p : AdminPage) (function : Loading) : AdminPage :=
  match function with
  | .connect => { p with connected := true }
  | .reload | .publish => p
  | .rollback => { p with rollbackTarget := .null, rollbackNote := [] }

/-- A function that loads the workspace, from a reply to the next request or its end. -/
def resumeLoading (p : AdminPage) (function : Loading) (stage : Stage) (reply : Reply) :
    AdminPage × List Task :=
  match stage with
  | .request => match reply with
    | .error status => ((p.loadingFailed function status).idle, [])
    | _ => match reply.value.member "version" with
      | some _ => (p, [.loading function .active])
      | none => ((p.loadingFailed function 0).idle, [])
  | .active => match p.loadActive reply with
    | .ok p' => (p', [.loading function .history])
    | .error status => ((p.loadingFailed function status).idle, [])
  | .history => match loadHistory reply with
    | .ok () => ((p.loadingDone function).idle, [])
    | .error status => ((p.loadingFailed function status).idle, [])

/-- The `catch` of `validateDraft`. -/
def validationFailed (p : AdminPage) (status : Nat) : AdminPage :=
  handleActionError { p with validation := .null, validatedRevision := none } status

/-- `validateDraft` from its reply on. -/
def resumeValidate (p : AdminPage) (revision : Nat) (reply : Reply) : AdminPage :=
  match reply with
  | .error status => (p.validationFailed status).idle
  | _ =>
    if !reply.value.truthy || !strictEq (reply.value.property "valid") (.bool true) then
      (p.validationFailed 200).idle
    else if revision ≠ p.draftRevision then p.idle
    else idle { p with validation := reply.value, validatedRevision := some revision }

/-- The `catch` of `previewDraft`. -/
def previewFailed (p : AdminPage) (status : Nat) : AdminPage :=
  handleActionError { p with preview := .null, previewedRevision := none } status

/-- `previewDraft` from its reply on. -/
def resumePreview (p : AdminPage) (revision : Nat) (reply : Reply) : AdminPage :=
  match reply with
  | .error status => (p.previewFailed status).idle
  | _ =>
    if revision ≠ p.draftRevision then p.idle
    else match reply.value.member "base_version" with
      | some _ => idle { p with preview := reply.value, previewedRevision := some revision }
      | none => (p.previewFailed 0).idle

/-- A task from its reply on: the page, and the task it awaits next in, if any. What `init` catches
and what `compareVersion` makes of a reply is only shown. -/
def resume (p : AdminPage) (task : Task) (reply : Reply) : AdminPage × List Task :=
  match task with
  | .init => match p.loadActive reply with
    | .ok p' => (p', [])
    | .error _ => (p, [])
  | .loading function stage => p.resumeLoading function stage reply
  | .validate revision _ => (p.resumeValidate revision reply, [])
  | .preview revision _ => (p.resumePreview revision reply, [])
  | .compare => match reply with
    | .error status => ((p.handleActionError status).idle, [])
    | _ => (p.idle, [])

/-- A function up to its request. -/
def request (p : AdminPage) (task : Task) : AdminPage × List Task :=
  ({ p with busyAction := task.action }, [task])

def connect (p : AdminPage) : AdminPage × List Task := p.request (.loading .connect .active)

def reloadWorkspace (p : AdminPage) : AdminPage × List Task := p.request (.loading .reload .active)

def disconnect (p : AdminPage) : AdminPage :=
  { p with
    connected := false
    validation := .null
    preview := .null
    rollbackTarget := .null
    changeNote := []
    rollbackNote := [] }

/-- What a control holds. -/
inductive Entered
  | blank
  | number (x : PyFloat)
  | choice (s : PyStr)

/-- The value that `writeField` makes of it, if the field is of that kind. -/
def Entered.value (field : Field) : Entered → Option Value
  | .blank => match field.kind with
    | .number _ _ _ => some .null
    | .select _ => none
  | .number x => match field.kind with
    | .number _ _ _ => some (.number x)
    | .select _ => none
  | .choice s => match field.kind with
    | .number _ _ _ => none
    | .select _ => some (.string s)

/-- `writeField`; where it throws, the page is as it was. -/
def writeField (p : AdminPage) (field : Field) (value : Value) : AdminPage :=
  if !p.draft.truthy || field.disabled then p
  else match setAtPath p.draft field.path value with
    | none => p
    | some draft =>
      { p.invalidateRevisions with draft := draft, localFieldErrors := validateLocalFields draft }

def updateChangeNote (p : AdminPage) (note : JsString) : AdminPage := { p with changeNote := note }

def updateRollbackNote (p : AdminPage) (note : JsString) : AdminPage :=
  { p with rollbackNote := note }

def validateDraft (p : AdminPage) : AdminPage × List Task :=
  let p := { p with localFieldErrors := validateLocalFields p.draft }
  if !p.localFieldErrors.entries.isEmpty || localUrgencyOrderError p.draft ≠ "" then (p, [])
  else p.request (.validate p.draftRevision p.draft)

def previewDraft (p : AdminPage) : AdminPage × List Task :=
  if p.canPreview then p.request (.preview p.draftRevision p.draft) else (p, [])

def publishDraft (p : AdminPage) : AdminPage × List Task :=
  if p.canPublish then p.request (.loading .publish .request) else (p, [])

def compareVersion (p : AdminPage) : AdminPage × List Task := p.request .compare

def prepareRollback (p : AdminPage) (record : Value) : AdminPage :=
  { p with rollbackTarget := clone record, rollbackNote := [] }

def cancelRollback (p : AdminPage) : AdminPage :=
  { p with rollbackTarget := .null, rollbackNote := [] }

def rollbackPolicy (p : AdminPage) : AdminPage × List Task :=
  if p.canRollback then p.request (.loading .rollback .request) else (p, [])

end AdminPage

/-! ## Events -/

inductive AdminEvent
  | connect
  | reload
  | disconnect
  | writeField (field : Field) (entered : AdminPage.Entered)
  | updateChangeNote (note : JsString)
  | updateRollbackNote (note : JsString)
  | validate
  | preview
  | publish
  | compare
  | prepareRollback (record : Value)
  | cancelRollback
  | rollback
  /-- the reply to the `n`-th request under way -/
  | reply (n : Nat) (r : Reply)

/-- The page, its functions under way, and what the service has answered: the draft of the last
`/validate` reply that accepted one, and the draft of the last `/preview` reply with the reply. -/
structure Visit where
  page : AdminPage
  tasks : List Task
  validated : Option Value
  previewed : Option (Value × Value)

/-- The page as it is loaded: `init` has sent its request. -/
def Visit.start : Visit := ⟨{}, [.init], none, none⟩

namespace Visit

def setPage (v : Visit) (p : AdminPage) : Visit := { v with page := p }

/-- The page and one more function under way. -/
def begin (v : Visit) (next : AdminPage × List Task) : Visit :=
  { v with page := next.1, tasks := v.tasks ++ next.2 }

/-- What a reply tells of the draft that was sent. -/
def noted (v : Visit) (task : Task) (reply : Reply) : Visit :=
  match task with
  | .validate _ draft =>
    if strictEq (reply.value.property "valid") (.bool true) then { v with validated := some draft }
    else v
  | .preview _ draft => match reply.value.member "base_version" with
    | some _ => { v with previewed := some (draft, reply.value) }
    | none => v
  | _ => v

def answer (v : Visit) (n : Nat) (task : Task) (reply : Reply) : Visit :=
  let next := v.page.resume task reply
  { v.noted task reply with page := next.1, tasks := v.tasks.eraseIdx n ++ next.2 }

/-- An event; `none` where `index.html` does not permit it. -/
def step (v : Visit) : AdminEvent → Option Visit
  | .connect =>
    if !v.page.connected && v.page.busyAction = none then some (v.begin v.page.connect) else none
  | .reload =>
    if v.page.connected && v.page.busyAction = none then some (v.begin v.page.reloadWorkspace)
    else none
  | .disconnect =>
    if v.page.connected && v.page.busyAction = none then some (v.setPage v.page.disconnect)
    else none
  | .writeField field entered =>
    if v.page.connected ∧ field ∈ allFields then
      (entered.value field).map fun value => v.setPage (v.page.writeField field value)
    else none
  | .updateChangeNote note =>
    if v.page.connected then some (v.setPage (v.page.updateChangeNote note)) else none
  | .updateRollbackNote note =>
    if v.page.connected && v.page.rollbackTarget.truthy then
      some (v.setPage (v.page.updateRollbackNote note))
    else none
  | .validate => if v.page.canValidate then some (v.begin v.page.validateDraft) else none
  | .preview => if v.page.canPreview then some (v.begin v.page.previewDraft) else none
  | .publish => if v.page.canPublish then some (v.begin v.page.publishDraft) else none
  | .compare =>
    if v.page.connected && v.page.busyAction = none then some (v.begin v.page.compareVersion)
    else none
  | .prepareRollback record =>
    if v.page.connected && v.page.busyAction = none &&
        !strictEq (record.property "version") v.page.baseVersion then
      some (v.setPage (v.page.prepareRollback record))
    else none
  | .cancelRollback =>
    if v.page.connected && v.page.rollbackTarget.truthy && v.page.busyAction = none then
      some (v.setPage v.page.cancelRollback)
    else none
  | .rollback =>
    if v.page.connected && v.page.canRollback then some (v.begin v.page.rollbackPolicy) else none
  | .reply n r => (v.tasks[n]?).map fun task => v.answer n task r

end Visit

end PolyGate.Automation.Admin
