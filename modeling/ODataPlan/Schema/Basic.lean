import ODataPlan.DialectSet
import ODataPlan.Name
import ODataPlan.Outcome
import ODataPlan.Schema.Declaration

/-! The registry of models with every reference resolved to an id, and its look-ups. -/
namespace ODataPlan

structure ModelId where
  index : Nat
deriving DecidableEq, Repr

/-- The id of a field: its model and its place there. -/
structure FieldId where
  model : ModelId
  index : Nat
deriving DecidableEq, Repr

/-- The id of the field at a place of a model. -/
def ModelId.field (m : ModelId) (index : Nat) : FieldId := ⟨m, index⟩

def FieldId.label (f : FieldId) : String := s!"FieldId({f.model.index}/{f.index})"

/-- A declared field with its id. -/
structure Field extends FieldDecl ModelId where
  id : FieldId
deriving DecidableEq, Repr

def Field.dialects (f : Field) : DialectSet := .ofPred f.supports

@[simp] theorem Field.contains_dialects (f : Field) (d : Dialect) :
    f.dialects.contains d = f.supports d := DialectSet.contains_ofPred ..

/-- A model: its fields in declaration order, its key, and how each dialect addresses it. -/
structure Model where
  id : ModelId
  name : Name
  fields : List Field
  key : FieldId
  endpoint : PerDialect (Option (Endpoint FieldId))
deriving DecidableEq, Repr

namespace Model

def field? (m : Model) (name : String) : Option Field := m.fields.find? (·.name == name)

def keyField (m : Model) : Except Dangling Field :=
  if m.key.model = m.id then
    match m.fields[m.key.index]? with
    | some f => .ok f
    | none => .error .foreign
  else .error .foreign

def path? (m : Model) (d : Dialect) (s : Source) : Option String :=
  (m.endpoint.get d).bind (·.path? s)

def dialects (m : Model) (s : Source) : DialectSet := .ofPred fun d => (m.path? d s).isSome

@[simp] theorem contains_dialects (m : Model) (s : Source) (d : Dialect) :
    (m.dialects s).contains d = (m.path? d s).isSome := DialectSet.contains_ofPred ..

/-- The scalars flagged as defaults that a dialect serves, in declaration order. -/
def defaultFields (m : Model) (d : Dialect) : List Field :=
  m.fields.filter fun f => f.isDefault && f.isScalarOn d

end Model

/-- A field together with the model that declares it. -/
structure Member where
  model : Model
  field : Field
deriving DecidableEq

def Member.fullName (x : Member) : String := s!"{x.model.name.upperCamel}::{x.field.name}"

def Model.members (m : Model) : List Member := m.fields.map (⟨m, ·⟩)

/-- The registered models, in order. -/
structure Schema where
  models : List Model
deriving DecidableEq

namespace Schema

def model? (s : Schema) (id : ModelId) : Option Model := s.models.find? (·.id == id)

/-- Follows a model id. -/
def model (s : Schema) (id : ModelId) : Except Dangling Model :=
  match s.model? id with
  | some m => .ok m
  | none => .error .model

/-- Follows a field id. -/
def member (s : Schema) (id : FieldId) : Except Dangling Member := do
  let m ← s.model id.model
  match m.fields[id.index]? with
  | some f => .ok ⟨m, f⟩
  | none => .error .field

/-- The first model of a name, in whichever form it is spelled. -/
def modelNamed? (s : Schema) (name : String) : Option Model :=
  let n := Name.ofString name
  s.models.find? (·.name == n)

theorem id_of_model? {s : Schema} {id : ModelId} {m : Model} (h : s.model? id = some m) :
    m.id = id := by
  simpa using List.find?_some h

theorem mem_of_model? {s : Schema} {id : ModelId} {m : Model} (h : s.model? id = some m) :
    m ∈ s.models := List.mem_of_find?_eq_some h

theorem model_eq_ok_iff {s : Schema} {id : ModelId} {m : Model} :
    s.model id = .ok m ↔ s.model? id = some m := by
  unfold model
  cases s.model? id <;> simp

/-- Puts a model into the list: in place of the one with its id, else at the end. -/
def insertModel (ms : List Model) (m : Model) : List Model :=
  if ms.any (·.id == m.id) then ms.map fun n => if n.id = m.id then m else n else ms ++ [m]

end Schema

end ODataPlan
