import PolyGate.Lib.JsonDumps
import PolyGate.PolicyPreview

/-!
# `Automation/CompilePreview.lean` — `_compile_preview`

From an intent and the policy version in force to what is stored for submission. The request for the
Gateway is also shown, as JSON, as a command line and as a Python script.
-/

namespace PolyGate.Automation

open Lib
open PolicyPreview (urgencyValue urgencyScore scenarioWeight)

/-! ## Texts -/

/-- A line break, and the indentation of a level. -/
def newline (level : Nat) : PyStr := codePoint '\n' :: List.replicate (2 * level) (codePoint ' ')

mutual

/-- `json.dumps(v, ensure_ascii=False, indent=2)`, at a level. -/
def dumpsIndent (level : Nat) : Json → PyStr
  | .arr (v :: elems) => codePoint '[' :: newline (level + 1) ++ dumpsIndent (level + 1) v ++
      elemsIndent level elems
  | .obj ((k, v) :: fields) => codePoint '\x7b' :: newline (level + 1) ++ quote k ++ str ": " ++
      dumpsIndent (level + 1) v ++ fieldsIndent level fields
  | v => dumps v

def elemsIndent (level : Nat) : List Json → PyStr
  | [] => newline level ++ [codePoint ']']
  | v :: elems => codePoint ',' :: newline (level + 1) ++ dumpsIndent (level + 1) v ++
      elemsIndent level elems

def fieldsIndent (level : Nat) : List (PyStr × Json) → PyStr
  | [] => newline level ++ [codePoint '\x7d']
  | (k, v) :: fields => codePoint ',' :: newline (level + 1) ++ quote k ++ str ": " ++
      dumpsIndent (level + 1) v ++ fieldsIndent level fields

end

/-- The characters that a shell word may have as it is. -/
def isShellSafe (p : CodePoint) : Bool :=
  0x30 ≤ p.val && p.val ≤ 0x39 || 0x41 ≤ p.val && p.val ≤ 0x5a || 0x61 ≤ p.val && p.val ≤ 0x7a ||
    (str "_@%+=:,./-").any fun q => q = p

/-- `shlex.quote` -/
def shlexQuote (s : PyStr) : PyStr :=
  if s = [] then str "''"
  else if s.all isShellSafe then s
  else codePoint '\'' :: s.flatMap (fun p =>
    if p = codePoint '\'' then str "'\"'\"'" else [p]) ++ [codePoint '\'']

/-- The string of a text without surrogates. -/
def ofText (s : PyStr) : String := String.ofList (chars s)

/-! ## The request -/

def qualityValue : Quality → String
  | .cheap => "cheap"
  | .balanced => "balanced"
  | .high => "high"

def privacyValue : Privacy → String
  | .standard => "standard"
  | .high => "high"

def scenarioValue : Scenario → String
  | .productionIncident => "production_incident"
  | .customerEscalation => "customer_escalation"
  | .financeSummary => "finance_summary"
  | .marketingBatch => "marketing_batch"

/-- `gateway_request.model_dump(mode="json")` -/
def GatewayRequest.json (request : GatewayRequest) : Json :=
  .obj [(str "model", .str (str request.model)),
    (str "messages", .arr (request.messages.map fun message =>
      .obj [(str "role", .str (str message.role)), (str "content", .str (str message.content))])),
    (str "polygate", .obj [(str "quality", .str (str (qualityValue request.polygate.quality))),
      (str "privacy", .str (str (privacyValue request.polygate.privacy))),
      (str "max_cost_usd", .float (.ofRat request.polygate.maxCostUsd)),
      (str "latency_target_ms", .int request.polygate.latencyTargetMs)])]

def polygateUrlDefault : String := "http://localhost:8000"

def polygateUrlPlaceholder : String := "$\x7bPOLYGATE_URL:-" ++ polygateUrlDefault ++ "\x7d"

def snippets (payload : Json) : Snippets :=
  let prettyJson := ofText (dumpsIndent 0 payload)
  let compactJson := dumpsSep (str ",") (str ":") payload
  { json := prettyJson
    curl := "curl -X POST " ++ polygateUrlPlaceholder ++ "/v1/chat/completions " ++
      "-H 'Content-Type: application/json' -d " ++ ofText (shlexQuote compactJson)
    python := "import os\n\n" ++ "import requests\n\n" ++
      "POLYGATE_URL = os.getenv(\"POLYGATE_URL\", \"" ++ polygateUrlDefault ++ "\")\n\n" ++
      "payload = " ++ prettyJson ++ "\n" ++ "response = requests.post(\n" ++
      "    f\"\x7bPOLYGATE_URL\x7d/v1/chat/completions\", json=payload, timeout=30\n" ++ ")\n" ++
      "response.raise_for_status()\n" ++ "print(response.json())" }

/-- A financial summary is private, whatever the intent says. -/
def normalize (intent : AutomationIntent) : AutomationIntent × List String :=
  if intent.scenario = .financeSummary ∧ intent.preferences.privacy ≠ .high then
    ({ intent with preferences := { intent.preferences with privacy := .high } },
      ["finance_summary requires privacy=high"])
  else (intent, [])

/-- The `PriorityDecision` for an intent. -/
def prioritize (policy : PolicyDraft) (intent : AutomationIntent) : PriorityDecision where
  cls := intent.urgency
  initialScore := urgencyScore policy intent.urgency + scenarioWeight policy intent.scenario
  reason := urgencyValue intent.urgency ++ " urgency (" ++
    toString (urgencyScore policy intent.urgency) ++ ") + " ++ scenarioValue intent.scenario ++
    " scenario (" ++ toString (scenarioWeight policy intent.scenario) ++ ")"

/-- `_compile_preview`, with `preview_` and a `uuid4` in hexadecimal. -/
def compilePreview (intent : AutomationIntent) (policyVersion : PolicyVersion)
    (previewId : String) : PreviewResponse :=
  let (normalized, adjustments) := normalize intent
  let gatewayRequest : GatewayRequest :=
    ⟨"auto", [⟨"user", normalized.prompt⟩], normalized.preferences⟩
  { previewId := previewId
    expiresInSeconds := 600
    normalizedIntent := normalized
    priority := prioritize policyVersion.policy normalized
    gatewayRequest := gatewayRequest
    snippets := snippets gatewayRequest.json
    policyAdjustments := adjustments
    policyVersion := some ⟨policyVersion.version, policyVersion.version_pos⟩ }

/-- What is adjusted does not count for the priority. -/
theorem compilePreview_priority (intent : AutomationIntent) (policyVersion : PolicyVersion)
    (previewId : String) : (compilePreview intent policyVersion previewId).priority =
      prioritize policyVersion.policy intent := by
  show prioritize policyVersion.policy (normalize intent).1 = _
  unfold normalize
  split <;> rfl

theorem prioritize_score (policy : PolicyDraft) (intent : AutomationIntent) :
    (prioritize policy intent).initialScore = PolicyPreview.score policy intent := by
  unfold prioritize PolicyPreview.score
  push_cast
  rfl

end PolyGate.Automation
