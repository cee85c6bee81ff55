import ODataPlan.Schema.Issue

/-! Checking that a registry is consistent. The checks list what they find in the order in which it
is reported; a registry is accepted when the list is empty. -/
namespace ODataPlan

/-- A list with one issue if the condition holds. -/
def SchemaIssue.when (i : SchemaIssue) (c : Bool) : List SchemaIssue := if c then [i] else []

@[simp] theorem SchemaIssue.when_eq_nil {i : SchemaIssue} {c : Bool} :
    i.when c = [] ↔ c = false := by
  cases c <;> simp [SchemaIssue.when]

namespace Model

def expandIssues (s : Schema) (m : Model) (f : Field) : List SchemaIssue :=
  match f.type with
  | .scalar => []
  | .expandable e =>
    (SchemaIssue.unregisteredTarget m.name f.name).when (s.model? e.target).isNone ++
    (SchemaIssue.noRequestPath m.name f.name).when (e.separateQuery && e.requestPath.rest.isNone)

def fieldIssues (s : Schema) (m : Model) (f : Field) (index : Nat) : List SchemaIssue :=
  (SchemaIssue.mismatchedId m.name f.name f.id).when (f.id != m.id.field index) ++
  (SchemaIssue.duplicateField m.name f.name).when ((m.fields.take index).any (·.name == f.name)) ++
  expandIssues s m f

/-- The id is that of a scalar of this model that the dialect serves. -/
def canProject (m : Model) (d : Dialect) (id : FieldId) : Bool :=
  id.model == m.id && (m.fields[id.index]?).any (·.isScalarOn d)

def endpointIssues (m : Model) (key : Field) (d : Dialect) : List SchemaIssue :=
  match m.endpoint.get d with
  | none => []
  | some e =>
    (SchemaIssue.keyNotServed m.name key.name d).when (!key.supports d) ++
    (e.required ++ e.fixedFields).flatMap fun id =>
      (SchemaIssue.notProjectable m.name id d).when (!m.canProject d id)

/-- What is wrong with the key, and with the endpoints that have to serve it. -/
def keyIssues (m : Model) : List SchemaIssue :=
  match m.fields[m.key.index]? with
  | none => [.noKey m.name]
  | some key =>
    (SchemaIssue.notScalarKey m.name key.name).when (!key.isKey || key.isExpandable) ++
    Dialect.all.flatMap (m.endpointIssues key)

def issues (s : Schema) (m : Model) : List SchemaIssue :=
  m.fields.zipIdx.flatMap (fun x => m.fieldIssues s x.1 x.2) ++
  (SchemaIssue.severalKeys m.name).when (1 < m.fields.countP (·.isKey)) ++
  m.keyIssues

end Model

namespace Schema

/-- What is wrong with a registry: models that are shown under one name, and the issues of each. -/
def issues (s : Schema) : List SchemaIssue :=
  s.models.zipIdx.flatMap fun x =>
    (SchemaIssue.duplicateModel x.1.name).when
      ((s.models.take x.2).any (·.name.upperCamel == x.1.name.upperCamel)) ++
    x.1.issues s

/-- The registry itself if nothing is wrong with it, or the first issue. -/
def verified (s : Schema) : Except SchemaIssue Schema :=
  match s.issues with
  | [] => .ok s
  | i :: _ => .error i

/-- The verified registry of a list of models, in which a later model replaces an earlier one of its
id. -/
def ofModels (ms : List Model) : Except SchemaIssue Schema :=
  verified ⟨ms.foldl insertModel []⟩

theorem verified_eq_ok_iff {s t : Schema} : s.verified = .ok t ↔ t = s ∧ s.issues = [] := by
  unfold verified
  cases s.issues <;> simp [eq_comm]

theorem ofModels_eq_ok_iff {ms : List Model} {s : Schema} :
    ofModels ms = .ok s ↔ s = ⟨ms.foldl insertModel []⟩ ∧ s.issues = [] := by
  unfold ofModels
  rw [verified_eq_ok_iff]
  constructor <;> (rintro ⟨rfl, h⟩; exact ⟨rfl, h⟩)

end Schema

end ODataPlan
