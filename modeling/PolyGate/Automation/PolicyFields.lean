import PolyGate.Automation.PolicyAdmin
import PolyGate.Lib.Dict

/-!
# `Automation/PolicyFields.lean` — the fields of the policy editor and their checks

The field tables of `automation/admin/policy-admin.js`, and what the page checks before it sends a
draft: each field by itself, and the order of the urgency scores. A path is kept as the segments
that `path.split(".")` gives.
-/

namespace PolyGate.Automation.Admin

open Lib Ecma

inductive FieldKind
  | number (min max : Nat) (step : ℚ)
  | select (options : List String)
  deriving DecidableEq

structure Field where
  path : List String
  label : String
  kind : FieldKind
  disabled : Bool
  deriving DecidableEq

def numberField (path : List String) (label : String) (min max : Nat) (step : ℚ) : Field :=
  ⟨path, label, .number min max step, false⟩

def selectField (path : List String) (label : String) (options : List String) (disabled : Bool) :
    Field :=
  ⟨path, label, .select options, disabled⟩

/-- `field.rangeLabel` -/
def Field.rangeLabel (field : Field) : String :=
  match field.kind with
  | .number min max step =>
    toString min ++ "–" ++ toString max ++ if step = 1 then " (whole number)" else ""
  | .select options => " or ".intercalate options

def qualityOptions : List String := ["cheap", "balanced", "high"]

def privacyOptions : List String := ["standard", "high"]

def gatewayFields : List Field :=
  [numberField ["gateway", "assumed_output_tokens"] "Assumed output tokens" 1 32768 1,
    numberField ["gateway", "balanced_price_tolerance"] "Balanced price tolerance" 0 2 (1 / 100),
    selectField ["gateway", "budget_mode"] "Budget mode" ["soft", "hard"] false,
    selectField ["gateway", "latency_mode"] "Latency mode" ["soft", "hard"] false,
    selectField ["gateway", "high_quality_strategy"] "High quality strategy"
      ["prefer_real", "lowest_cost"] false]

def urgencyFields : List Field :=
  [numberField ["automation", "urgency_scores", "critical"] "Critical" 0 1000 1,
    numberField ["automation", "urgency_scores", "high"] "High" 0 1000 1,
    numberField ["automation", "urgency_scores", "normal"] "Normal" 0 1000 1,
    numberField ["automation", "urgency_scores", "low"] "Low" 0 1000 1]

def queueFields : List Field :=
  [numberField ["automation", "queue", "waiting_bonus_interval_seconds"] "Waiting bonus interval"
      1 3600 1,
    numberField ["automation", "queue", "waiting_bonus_points"] "Waiting bonus points" 0 100 1,
    numberField ["automation", "queue", "waiting_bonus_cap"] "Waiting bonus cap" 0 1000 1,
    numberField ["automation", "queue", "starvation_streak_threshold"]
      "Starvation streak threshold" 1 100 1,
    numberField ["automation", "queue", "starvation_wait_seconds"] "Starvation wait" 1 86400 1]

def scenarioFields (key : String) (financeLocked : Bool) : List Field :=
  let defaults := ["automation", "scenarios", key, "defaults"]
  [numberField ["automation", "scenarios", key, "weight"] "Priority weight" 0 500 1,
    selectField (defaults ++ ["quality"]) "Default quality" qualityOptions false,
    selectField (defaults ++ ["privacy"]) "Default privacy"
      (if financeLocked then ["high"] else privacyOptions) financeLocked,
    numberField (defaults ++ ["max_cost_usd"]) "Maximum cost" 0 10 (1 / 1000),
    numberField (defaults ++ ["latency_target_ms"]) "Latency target" 1 120000 1]

/-- `ALL_FIELDS` -/
def allFields : List Field :=
  gatewayFields ++ urgencyFields ++
    (scenarioFields "production_incident" false ++ scenarioFields "customer_escalation" false ++
      scenarioFields "finance_summary" true ++ scenarioFields "marketing_batch" false) ++
    queueFields

/-! ## Paths -/

def getAtPath (target : Value) (path : List String) : Value :=
  path.foldl (fun value segment => value.property segment) target

/-- `setAtPath`; `none` is a `TypeError`. Of an array the elements are kept, which a property
beside them does not change. -/
def setAtPath : Value → List String → Value → Option Value
  | .object fields, [segment], value => some (.object (assign fields (str segment) value))
  | .object fields, segment :: rest, value =>
    (setAtPath (get fields (str segment)) rest value).map fun inner =>
      .object (assign fields (str segment) inner)
  | .array elems, [_], _ => some (.array elems)
  | _, _, _ => none

/-! ## Local checks -/

/-- The message for the value of a field. -/
def fieldMessage (field : Field) (value : Value) : Option String :=
  match field.kind with
  | .number min max step => match value with
    | .number (.finite neg m) =>
      if PyFloat.value neg m < min ∨ (max : ℚ) < PyFloat.value neg m then
        some (field.label ++ " must be within " ++ field.rangeLabel ++ ".")
      else if step = 1 ∧ m.den ≠ 1 then some (field.label ++ " must be a whole number.")
      else none
    | _ => some (field.label ++ " is required and must be a number.")
  | .select options =>
    if options.any fun option => strictEq (.string (str option)) value then none
    else some (field.label ++ " must be " ++ field.rangeLabel ++ ".")

def financePath : List String :=
  ["automation", "scenarios", "finance_summary", "defaults", "privacy"]

/-- Messages by path. -/
abbrev FieldErrors := Dict (List String) String

def validateLocalFields (draft : Value) : FieldErrors :=
  if draft.truthy then
    let errors := allFields.foldl (fun errors field =>
      match fieldMessage field (getAtPath draft field.path) with
      | some message => errors.set field.path message
      | none => errors) Dict.empty
    if strictEq (getAtPath draft financePath) (.string (str "high")) then errors
    else errors.set financePath "Finance summary privacy must remain high."
  else Dict.empty

/-- The number that a value is, if it is a finite one. -/
def finiteNumber : Value → Option ℚ
  | .number (.finite neg m) => some (PyFloat.value neg m)
  | _ => none

def localUrgencyOrderError (draft : Value) : String :=
  let scores := getAtPath draft ["automation", "urgency_scores"]
  if scores.truthy then
    match finiteNumber (scores.property "critical"), finiteNumber (scores.property "high"),
      finiteNumber (scores.property "normal"), finiteNumber (scores.property "low") with
    | some critical, some high, some normal, some low =>
      if critical > high ∧ high > normal ∧ normal > low then ""
      else "Urgency scores must satisfy critical > high > normal > low."
    | _, _, _, _ => ""
  else "Urgency scores are unavailable."

end PolyGate.Automation.Admin
