import ODataPlan.Name
import ODataPlan.Schema.Declaration

/-! Model definitions as they are written before registration: fields, targets and endpoints refer
to each other by name. -/
namespace ODataPlan

structure Definition where
  name : Name
  fields : List (FieldDecl String) := []
  /-- The place of the key among the fields. -/
  key : Option Nat := none
  endpoint : PerDialect (Option (Endpoint String)) := ⟨none, none⟩
deriving DecidableEq

namespace Definition

/-- A definition without fields or endpoints. -/
def named (name : String) : Definition := ⟨.ofString name, [], none, ⟨none, none⟩⟩

def withField (m : Definition) (f : FieldDecl String) : Definition :=
  { m with fields := m.fields ++ [f] }

/-- Appends a field and makes it the key. -/
def withKey (m : Definition) (f : FieldDecl String) : Definition :=
  { m with fields := m.fields ++ [{ f with isKey := true }], key := some m.fields.length }

/-- Sets the place of the key, whatever is flagged. -/
def withKeyAt (m : Definition) (place : Option Nat) : Definition := { m with key := place }

def onRest (m : Definition) (e : Endpoint String) : Definition :=
  { m with endpoint := { m.endpoint with rest := some e } }

def onGraph (m : Definition) (e : Endpoint String) : Definition :=
  { m with endpoint := { m.endpoint with graph := some e } }

def field? (m : Definition) (name : String) : Option (FieldDecl String) :=
  m.fields.find? (·.name == name)

end Definition

/-- The field under the lower camel form of its logical name on Graph. -/
def FieldDecl.onGraphCamelCase (f : FieldDecl τ) : FieldDecl τ :=
  f.onGraph (Name.ofString f.name).lowerCamel

example : ((FieldDecl.scalar "DefaultLanguage" : FieldDecl String).onGraphCamelCase).wireName
    = ⟨some "DefaultLanguage", some "defaultLanguage"⟩ := by decide +kernel

end ODataPlan
