import Mathlib.Data.List.Basic
import Mathlib.Logic.Function.Basic
import ODataPlan.Definition.Resolve
import ODataPlan.Plan.Basic
import ODataPlan.Proofs.Outcome

/-! Renamings of model ids, and registries that contain the models of another one under new ids.
What a look-up finds in such a registry is what it finds in the other one, renamed. Here and in the
modules that follow `ρ.model`, `ρ.selection`, `ρ.plan` and so on are the data with every id renamed
and all else as it was. -/
namespace ODataPlan

/-- A change of model ids that keeps distinct ids distinct. -/
structure Renaming where
  id : ModelId → ModelId
  injective : Function.Injective id

namespace Renaming

variable (ρ : Renaming)

def field (f : FieldId) : FieldId := (ρ.id f.model).field f.index

def type : FieldType ModelId → FieldType ModelId
  | .scalar => .scalar
  | .expandable e => .expandable (e.withTarget (ρ.id e.target))

def declared (f : Field) : Field :=
  ⟨⟨f.name, f.wireName, ρ.type f.type, f.isKey, f.isDefault⟩, ρ.field f.id⟩

def defaults : DefaultSelect FieldId → DefaultSelect FieldId
  | .implicit => .implicit
  | .declared => .declared
  | .fields fs => .fields (fs.map ρ.field)

def endpoint (e : Endpoint FieldId) : Endpoint FieldId :=
  ⟨e.entity, e.collection, ρ.defaults e.defaultSelect, e.required.map ρ.field⟩

def model (m : Model) : Model :=
  ⟨ρ.id m.id, m.name, m.fields.map ρ.declared, ρ.field m.key,
    ⟨m.endpoint.rest.map ρ.endpoint, m.endpoint.graph.map ρ.endpoint⟩⟩

def member (x : Member) : Member := ⟨ρ.model x.model, ρ.declared x.field⟩

/-- The second registry has the models of the first one under new ids, and nothing else under those
ids. -/
def Embeds (s s' : Schema) : Prop := ∀ id, s'.model? (ρ.id id) = (s.model? id).map ρ.model

theorem field_injective : Function.Injective ρ.field := by
  rintro ⟨m, i⟩ ⟨n, j⟩ h
  obtain ⟨hm, hi⟩ := FieldId.mk.inj h
  exact congrArg₂ FieldId.mk (ρ.injective hm) hi

@[simp] theorem id_inj {m n : ModelId} : ρ.id m = ρ.id n ↔ m = n := ρ.injective.eq_iff

@[simp] theorem field_inj {f g : FieldId} : ρ.field f = ρ.field g ↔ f = g :=
  ρ.field_injective.eq_iff

@[simp] theorem model_field (f : FieldId) : (ρ.field f).model = ρ.id f.model := rfl

@[simp] theorem index_field (f : FieldId) : (ρ.field f).index = f.index := rfl

@[simp] theorem id_declared (f : Field) : (ρ.declared f).id = ρ.field f.id := rfl

@[simp] theorem type_declared (f : Field) : (ρ.declared f).type = ρ.type f.type := rfl

@[simp] theorem isDefault_declared (f : Field) : (ρ.declared f).isDefault = f.isDefault := rfl

@[simp] theorem id_model (m : Model) : (ρ.model m).id = ρ.id m.id := rfl

@[simp] theorem key_model (m : Model) : (ρ.model m).key = ρ.field m.key := rfl

@[simp] theorem fields_model (m : Model) : (ρ.model m).fields = m.fields.map ρ.declared := rfl

@[simp] theorem field_member (x : Member) : (ρ.member x).field = ρ.declared x.field := rfl

@[simp] theorem expand?_type (t : FieldType ModelId) :
    (ρ.type t).expand? = t.expand?.map fun e => e.withTarget (ρ.id e.target) := by cases t <;> rfl

@[simp] theorem isExpandable_declared (f : Field) :
    (ρ.declared f).isExpandable = f.isExpandable := by
  obtain ⟨⟨name, wire, type, key, default⟩, id⟩ := f
  cases type <;> rfl

@[simp] theorem supports_declared (f : Field) (d : Dialect) :
    (ρ.declared f).supports d = f.supports d := rfl

@[simp] theorem isScalarOn_declared (f : Field) (d : Dialect) :
    (ρ.declared f).isScalarOn d = f.isScalarOn d := by
  simp [FieldDecl.isScalarOn]

@[simp] theorem dialects_declared (f : Field) : (ρ.declared f).dialects = f.dialects := rfl

@[simp] theorem field?_model (m : Model) (name : String) :
    (ρ.model m).field? name = (m.field? name).map ρ.declared := by
  rw [Model.field?, model, List.find?_map]
  rfl

@[simp] theorem endpoint_model (m : Model) (d : Dialect) :
    (ρ.model m).endpoint.get d = (m.endpoint.get d).map ρ.endpoint := by cases d <;> rfl

@[simp] theorem path?_endpoint (e : Endpoint FieldId) (s : Source) :
    (ρ.endpoint e).path? s = e.path? s := by cases s <;> rfl

@[simp] theorem path?_model (m : Model) (d : Dialect) (s : Source) :
    (ρ.model m).path? d s = m.path? d s := by
  rw [Model.path?, Model.path?, endpoint_model]
  cases m.endpoint.get d <;> simp

@[simp] theorem dialects_model (m : Model) (s : Source) :
    (ρ.model m).dialects s = m.dialects s := by
  simp [Model.dialects]

@[simp] theorem defaultFields_model (m : Model) (d : Dialect) :
    (ρ.model m).defaultFields d = (m.defaultFields d).map ρ.declared := by
  simp [Model.defaultFields, List.filter_map, Function.comp_def]

@[simp] theorem members_model (m : Model) : (ρ.model m).members = m.members.map ρ.member := by
  simp [Model.members, member, Function.comp_def]

theorem keyField_model (m : Model) : (ρ.model m).keyField = ρ.declared <$> m.keyField := by
  unfold Model.keyField
  simp only [key_model, model_field, id_model, id_inj, fields_model, index_field, List.getElem?_map]
  split
  · cases m.fields[m.key.index]? <;> rfl
  · rfl

section Lists

variable {α β : Type} {f : α → β}

theorem addNew_map [DecidableEq α] [DecidableEq β] (hf : Function.Injective f) (xs : List α)
    (x : α) :
    addNew (xs.map f) (f x) = (addNew xs x).map f := by
  simp only [addNew, List.mem_map_of_injective hf]
  split <;> simp

variable [BEq α] [LawfulBEq α] [BEq β] [LawfulBEq β]

theorem contains_map (hf : Function.Injective f) (xs : List α) (x : α) :
    (xs.map f).contains (f x) = xs.contains x := by
  rw [Bool.eq_iff_iff, List.contains_iff_mem, List.contains_iff_mem, List.mem_map_of_injective hf]

end Lists

theorem mapM_map {ε α α' β β' : Type} {f : α → Except ε β} {f' : α' → Except ε β'} {g : α → α'}
    {h : β → β'} (each : ∀ x, f' (g x) = h <$> f x) (xs : List α) :
    (xs.map g).mapM f' = List.map h <$> xs.mapM f := by
  induction xs with
  | nil => rfl
  | cons x xs ih =>
    rw [List.map_cons, List.mapM_cons, List.mapM_cons, each, ih]
    cases f x with
    | error e => rfl
    | ok y => cases xs.mapM f <;> rfl

theorem mapM_congr {ε α β β' : Type} {f : α → Except ε β} {f' : α → Except ε β'} {h : β → β'}
    (each : ∀ x, f' x = h <$> f x) (xs : List α) : xs.mapM f' = List.map h <$> xs.mapM f := by
  simpa using mapM_map (g := fun x : α => x) each xs

namespace Embeds

variable {ρ} {s s' : Schema} (h : ρ.Embeds s s')

include h

theorem model (id : ModelId) : s'.model (ρ.id id) = ρ.model <$> s.model id := by
  unfold Schema.model
  rw [h id]
  cases s.model? id <;> rfl

theorem member (f : FieldId) : s'.member (ρ.field f) = ρ.member <$> s.member f := by
  unfold Schema.member
  rw [model_field, h.model, bind_map_left, map_bind]
  refine congrArg _ (funext fun m => ?_)
  rw [fields_model, index_field, List.getElem?_map]
  cases m.fields[f.index]? <;> rfl

end Embeds

end Renaming

end ODataPlan
