import ODataPlan.Definition.Basic
import ODataPlan.Schema.Verify

/-! From model definitions to the registry: models and fields are numbered in order, and every name
is replaced by the id it stands for. -/
namespace ODataPlan

namespace Expand

/-- The expansion with its target changed by a function. -/
def withTarget (e : Expand τ) (target : σ) : Expand σ :=
  ⟨target, e.collection, e.separateQuery, e.requestPath⟩

end Expand

namespace Definition

/-- The id of the definition of a name: its place in the list. -/
def idOf? (ms : List Definition) (target : String) : Option ModelId :=
  let n := Name.ofString target
  (ms.findIdx? (·.name == n)).map ModelId.mk

/-- The field at a place, its target looked up among all definitions. -/
def resolveField (ms : List Definition) (m : Definition) (id : ModelId) (f : FieldDecl String)
    (index : Nat) : Except SchemaIssue Field :=
  match f.type with
  | .scalar => .ok ⟨⟨f.name, f.wireName, .scalar, f.isKey, f.isDefault⟩, id.field index⟩
  | .expandable e =>
    match idOf? ms e.target with
    | none => .error (.unknownTarget m.name f.name e.target)
    | some target =>
      .ok ⟨⟨f.name, f.wireName, .expandable (e.withTarget target), f.isKey, f.isDefault⟩,
        id.field index⟩

/-- The id of the first field of a name. -/
def fieldId (m : Definition) (id : ModelId) (name : String) : Except SchemaIssue FieldId :=
  match m.fields.findIdx? (·.name == name) with
  | some index => .ok (id.field index)
  | none => .error (.unknownEndpointField m.name name)

/-- An endpoint with its field names looked up in its own model, those of the default projection
first. -/
def resolveEndpoint (m : Definition) (id : ModelId) (e : Endpoint String) :
    Except SchemaIssue (Endpoint FieldId) := do
  let defaults ← match e.defaultSelect with
    | .implicit => pure .implicit
    | .declared => pure .declared
    | .fields names => DefaultSelect.fields <$> names.mapM (m.fieldId id)
  let required ← e.required.mapM (m.fieldId id)
  return ⟨e.entity, e.collection, defaults, required⟩

def resolveEndpoint? (m : Definition) (id : ModelId) :
    Option (Endpoint String) → Except SchemaIssue (Option (Endpoint FieldId))
  | none => .ok none
  | some e => some <$> m.resolveEndpoint id e

/-- The definition at a place as a model of the registry. -/
def resolve (ms : List Definition) (m : Definition) (index : Nat) : Except SchemaIssue Model := do
  let id : ModelId := ⟨index⟩
  let fields ← m.fields.zipIdx.mapM fun x => resolveField ms m id x.1 x.2
  match m.key with
  | none => throw (.noKey m.name)
  | some key =>
    let rest ← m.resolveEndpoint? id m.endpoint.rest
    let graph ← m.resolveEndpoint? id m.endpoint.graph
    return ⟨id, m.name, fields, id.field key, ⟨rest, graph⟩⟩

/-- The first definition whose name an earlier one has. -/
def firstDuplicate? (ms : List Definition) : Option Definition :=
  (ms.zipIdx.find? fun x => (ms.take x.2).any (·.name == x.1.name)).map (·.1)

end Definition

namespace Schema

/-- The registry of a list of definitions, or the first thing wrong with them. -/
def ofDefinitions (ms : List Definition) : Except SchemaIssue Schema :=
  match Definition.firstDuplicate? ms with
  | some m => .error (.duplicateModel m.name)
  | none => (ms.zipIdx.mapM fun x => Definition.resolve ms x.1 x.2) >>= ofModels

end Schema

end ODataPlan
