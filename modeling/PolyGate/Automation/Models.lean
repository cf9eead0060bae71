import PolyGate.Lib.PyFloat

/-!
# `Automation/Models.lean` — the records the Automation service exchanges

`automation/app/models.py`, field by field. A field that pydantic bounds (`Field(ge=…, le=…)`)
carries the bound as a proof next to it, so a value outside it cannot be built; the bounds are
the only thing validation adds that the code behind it relies on.

Wall-clock times are seconds as exact rationals. Every finite `float` is one; only the rounding
of float arithmetic is not modelled. JSON documents that the queue carries without looking
inside (a gateway answer) are kept in their serialized form.
-/

namespace PolyGate.Automation

open Lib (Time)

/-- A JSON object in serialized form. -/
abbrev JsonText := String

/-- A policy version number, `Field(ge=1)`. -/
abbrev VersionNumber := {n : Nat // 1 ≤ n}

inductive Department | engineering | support | finance | marketing
  deriving DecidableEq, Repr

inductive Scenario | productionIncident | customerEscalation | financeSummary | marketingBatch
  deriving DecidableEq, Repr

inductive Urgency | critical | high | normal | low
  deriving DecidableEq, Repr

inductive Quality | cheap | balanced | high
  deriving DecidableEq, Repr

inductive Privacy | standard | high
  deriving DecidableEq, Repr

structure Preferences where
  quality : Quality
  privacy : Privacy
  maxCostUsd : ℚ
  latencyTargetMs : Nat
  maxCostUsd_bounds : 0 ≤ maxCostUsd ∧ maxCostUsd ≤ 10
  latencyTargetMs_bounds : 1 ≤ latencyTargetMs ∧ latencyTargetMs ≤ 120000
  deriving DecidableEq, Repr

structure AutomationIntent where
  employee : String
  department : Department
  scenario : Scenario
  urgency : Urgency
  prompt : String
  preferences : Preferences
  employee_bounds : 1 ≤ employee.length ∧ employee.length ≤ 80
  prompt_bounds : 1 ≤ prompt.length ∧ prompt.length ≤ 20000
  deriving DecidableEq, Repr

/-- `PriorityDecision`; the source's `class_` (serialized as `class`) is `cls`. -/
structure PriorityDecision where
  cls : Urgency
  initialScore : Int
  reason : String
  deriving DecidableEq, Repr

structure GatewayMessage where
  role : String
  content : String
  deriving DecidableEq, Repr

structure GatewayRequest where
  model : String
  messages : List GatewayMessage
  polygate : Preferences
  deriving DecidableEq, Repr

structure Snippets where
  json : String
  curl : String
  python : String
  deriving DecidableEq, Repr

structure PreviewResponse where
  previewId : String
  expiresInSeconds : Int
  normalizedIntent : AutomationIntent
  priority : PriorityDecision
  gatewayRequest : GatewayRequest
  snippets : Snippets
  policyAdjustments : List String
  policyVersion : Option VersionNumber
  deriving DecidableEq, Repr

inductive JobState | queued | running | completed | failed
  deriving DecidableEq, Repr

/-- `completed` and `failed`: the worker is done with the job. -/
def JobState.Terminal : JobState → Prop
  | .completed | .failed => True
  | .queued | .running => False

instance : DecidablePred JobState.Terminal
  | .completed | .failed => isTrue trivial
  | .queued | .running => isFalse id

/-- `job_` followed by a `uuid4` in hexadecimal. -/
abbrev JobId := String

structure JobRecord where
  jobId : JobId
  status : JobState
  priority : PriorityDecision
  queuePosition : Nat
  createdAt : Time
  startedAt : Option Time
  completedAt : Option Time
  result : Option JsonText
  error : Option String
  policyVersion : Option VersionNumber
  deriving DecidableEq, Repr

end PolyGate.Automation
