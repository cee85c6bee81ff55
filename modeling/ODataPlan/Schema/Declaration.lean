import ODataPlan.Dialect

/-! What is declared about fields and endpoints, before and after references are resolved. The
parameter `τ` is how an expandable names its target model, `ρ` how an endpoint names a field. -/
namespace ODataPlan

/-- Whether a request loads one entity or a collection of them. -/
inductive Source where
  | entity
  | collection
deriving DecidableEq, Repr

/-- An expandable field: a nested object or collection of another model. -/
structure Expand (τ : Type) where
  target : τ
  /-- The field holds a collection. -/
  collection : Bool := false
  /-- REST cannot expand the field inline. -/
  separateQuery : Bool := false
  /-- Path templates of a request that loads the field on its own. -/
  requestPath : PerDialect (Option String) := ⟨none, none⟩
deriving DecidableEq, Repr

/-- A field is a value of the entity itself, or loads other entities. -/
inductive FieldType (τ : Type) where
  | scalar
  | expandable (e : Expand τ)
deriving DecidableEq, Repr

namespace FieldType

def expand? : FieldType τ → Option (Expand τ)
  | scalar => none
  | expandable e => some e

def isExpandable (t : FieldType τ) : Bool := t.expand?.isSome

@[simp] theorem expand?_scalar : (scalar : FieldType τ).expand? = none := rfl

@[simp] theorem expand?_expandable (e : Expand τ) : (expandable e).expand? = some e := rfl

@[simp] theorem isExpandable_scalar : (scalar : FieldType τ).isExpandable = false := rfl

@[simp] theorem isExpandable_expandable (e : Expand τ) : (expandable e).isExpandable = true := rfl

end FieldType

/-- The declaration of a field: its logical name, and its name on each dialect that serves it. -/
structure FieldDecl (τ : Type) where
  name : String
  wireName : PerDialect (Option String)
  type : FieldType τ := .scalar
  /-- The field is flagged as the key. -/
  isKey : Bool := false
  /-- The field is flagged as part of the default set. -/
  isDefault : Bool := false
deriving DecidableEq, Repr

namespace FieldDecl

def supports (f : FieldDecl τ) (d : Dialect) : Bool := (f.wireName.get d).isSome

def isExpandable (f : FieldDecl τ) : Bool := f.type.isExpandable

def isScalarOn (f : FieldDecl τ) (d : Dialect) : Bool := f.supports d && !f.isExpandable

/-- A scalar that REST serves under its logical name. -/
def scalar (name : String) : FieldDecl τ := ⟨name, ⟨some name, none⟩, .scalar, false, false⟩

/-- An expandable that REST serves under its logical name. -/
def expanding (name : String) (e : Expand τ) : FieldDecl τ :=
  ⟨name, ⟨some name, none⟩, .expandable e, false, false⟩

def graphOnly (name wire : String) : FieldDecl τ := ⟨name, ⟨none, some wire⟩, .scalar, false, false⟩

/-- The field under another name on REST, or not served there. -/
def onRest (f : FieldDecl τ) (wire : Option String) : FieldDecl τ :=
  { f with wireName := { f.wireName with rest := wire } }

def onGraph (f : FieldDecl τ) (wire : String) : FieldDecl τ :=
  { f with wireName := { f.wireName with graph := some wire } }

def byDefault (f : FieldDecl τ) : FieldDecl τ := { f with isDefault := true }

end FieldDecl

/-- What a request projects when nothing is selected. -/
inductive DefaultSelect (ρ : Type) where
  /-- Nothing is named: the server's answer is the default set. -/
  | implicit
  /-- The fields flagged as defaults, in declaration order. -/
  | declared
  /-- The listed fields, in that order. -/
  | fields (fs : List ρ)
deriving DecidableEq, Repr

/-- How a model is addressed on one dialect. -/
structure Endpoint (ρ : Type) where
  /-- Path template of a single entity. -/
  entity : String
  /-- Path template of the collection, if there is one. -/
  collection : Option String := none
  defaultSelect : DefaultSelect ρ := .declared
  /-- Fields appended to every explicit projection. -/
  required : List ρ := []
deriving DecidableEq, Repr

def Endpoint.path? (e : Endpoint ρ) : Source → Option String
  | .entity => some e.entity
  | .collection => e.collection

def Endpoint.fixedFields (e : Endpoint ρ) : List ρ :=
  match e.defaultSelect with
  | .fields fs => fs
  | _ => []

end ODataPlan
