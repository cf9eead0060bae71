import PolyGate.Gateway.Router
import PolyGate.Lib.PyDict

/-!
# `Gateway/Registry.lean` — registry entries as they are loaded

`load_providers` of `gateway/app/registry.py` returns what the YAML file says, with environment
variables expanded and nothing checked: an entry is a dictionary with a name. What the code asks of
an entry is asked here of that dictionary, and may raise where a field has another shape.

`Entry.provider` reads the fields that the router works with; for an entry whose fields have the
types that are meant (`WellTyped`) that is all there is to them.
-/

namespace PolyGate.Gateway

open Lib

structure Entry where
  name : String
  fields : Obj
  named : Obj.get? fields "name" = some (.str (str name))

namespace Entry

variable (e : Entry)

def get? (key : String) : Option Json := Obj.get? e.fields key

/-- `provider.get("capabilities", {})` -/
def capabilities : Json := (e.get? "capabilities").getD (.obj [])

/-- `capabilities.get(capability) is True` -/
def isCapable (capability : String) : Except ShapeError Bool := do
  let capabilities ← e.capabilities.asDict
  return (Obj.get? capabilities capability).any (·.isTrue)

/-- `missing_capabilities`, which asks nothing of an entry when nothing is required. -/
def missingCapabilities : List String → Except ShapeError (List String)
  | [] => .ok []
  | capability :: required => do
    let capable ← e.isCapable capability
    let missing ← missingCapabilities required
    return if capable then missing else capability :: missing

/-- The number in a field that holds one. -/
def number? (key : String) : Option ℚ :=
  match (e.get? key).bind (·.number) with
  | some (.finite neg m) => some (PyFloat.value neg m)
  | _ => none

/-- What the router reads of the entry. -/
def provider : Provider where
  name := e.name
  kind := e.get? "kind"
  privacy := e.get? "privacy"
  capabilities := match e.capabilities with
    | .obj capabilities => some capabilities
    | _ => none
  typicalLatencyMs := e.number? "typical_latency_ms"
  qualityRank := e.get? "quality_rank"
  pricePer1kInput := e.number? "price_per_1k_input"
  pricePer1kOutput := e.number? "price_per_1k_output"

/-- The field holds a finite number, if anything. -/
def Numeric (key : String) : Prop := (e.get? key).isSome = true → (e.number? key).isSome = true

/-- The prices and the latency are numbers, and the capabilities are an object. -/
structure WellTyped : Prop where
  capabilities : ∃ capabilities, e.capabilities = .obj capabilities
  typicalLatencyMs : e.Numeric "typical_latency_ms"
  pricePer1kInput : e.Numeric "price_per_1k_input"
  pricePer1kOutput : e.Numeric "price_per_1k_output"

end Entry

section
variable {e : Entry} {required : List String} {capability : String}

theorem missingCapabilities_eq_nil_iff : e.missingCapabilities required = .ok [] ↔
    ∀ capability ∈ required, e.isCapable capability = .ok true := by
  induction required with
  | nil => simp [Entry.missingCapabilities]
  | cons capability required ih =>
    rw [List.forall_mem_cons, ← ih, Entry.missingCapabilities]
    constructor
    · intro h
      obtain ⟨capable, hcapable, h⟩ := bind_eq_ok.mp h
      obtain ⟨missing, hmissing, h⟩ := bind_eq_ok.mp h
      cases capable with
      | false => cases h
      | true =>
        obtain rfl : missing = [] := Except.ok.inj h
        exact ⟨hcapable, hmissing⟩
    · rintro ⟨hcapable, hmissing⟩
      rw [hcapable, hmissing]
      rfl

/-- An entry with an object of capabilities lacks what the router finds missing. -/
theorem missingCapabilities_provider {capabilities : Obj}
    (h : e.capabilities = .obj capabilities) : e.missingCapabilities required =
      .ok (Gateway.missingCapabilities e.provider required) := by
  have hprovider : e.provider.capabilities = some capabilities := by
    unfold Entry.provider
    rw [h]
  induction required with
  | nil => rfl
  | cons capability required ih =>
    have hcapable : e.isCapable capability =
        .ok ((Obj.get? capabilities capability).any (·.isTrue)) := by
      unfold Entry.isCapable
      rw [h]
      rfl
    rw [Entry.missingCapabilities, hcapable, ih]
    unfold Gateway.missingCapabilities
    rw [hprovider, List.filter_cons]
    cases hget : Obj.get? capabilities capability with
    | none => simp [hget, pure, Except.pure, bind, Except.bind]
    | some v => cases htrue : v.isTrue <;> simp [hget, htrue, pure, Except.pure, bind, Except.bind]

end

end PolyGate.Gateway
