import ODataPlan.Query.Selector
import ODataPlan.Selection

/-! Selectors with every name looked up, and how they build up a selection. -/
namespace ODataPlan

/-- A selector whose names are replaced by ids. -/
inductive Pick where
  /-- A scalar field. -/
  | scalar (f : FieldId)
  /-- An expandable with its default set. -/
  | bare (f : FieldId) (target : ModelId)
  /-- An expandable and picks within it. -/
  | within (f : FieldId) (target : ModelId) (picks : List Pick)

namespace FailureKind

def unknownProperty (m : Model) (name : String) : FailureKind :=
  .schemaMismatch m.name.upperCamel name

/-- A scalar has no properties to select within it. -/
def noPropertiesWithin (x : Member) (name : String) : FailureKind :=
  .schemaMismatch x.fullName name

end FailureKind

mutual

def Selector.resolve (s : Schema) (m : Model) : Selector → Outcome Pick
  | .field name =>
    match m.field? name with
    | none => (FailureKind.unknownProperty m name).raise
    | some f =>
      match f.type with
      | .scalar => .ok (.scalar f.id)
      | .expandable e => .ok (.bare f.id e.target)
  | .nested name selectors =>
    match m.field? name with
    | none => (FailureKind.unknownProperty m name).raise
    | some f =>
      match f.type with
      | .scalar =>
        match selectors with
        | [] => .ok (.scalar f.id)
        | x :: _ => (FailureKind.noPropertiesWithin ⟨m, f⟩ x.name).raise
      | .expandable e => (Selector.resolveAll s e.target selectors).map (.within f.id e.target)

/-- Looks up selectors in turn on the model of an id. -/
def Selector.resolveAll (s : Schema) (target : ModelId) : List Selector → Outcome (List Pick)
  | [] => .ok []
  | x :: xs => do
    let m ← s.model target
    let p ← x.resolve s m
    let ps ← Selector.resolveAll s target xs
    return p :: ps

end

mutual

/-- The fields a pick names, outermost first. -/
def Pick.named : Pick → List FieldId
  | .scalar f => [f]
  | .bare f _ => [f]
  | .within f _ picks => f :: Pick.namedAll picks

def Pick.namedAll : List Pick → List FieldId
  | [] => []
  | p :: ps => p.named ++ Pick.namedAll ps

end

mutual

def Selection.add (s : Selection) : Pick → Selection
  | .scalar f => s.insertField f
  | .bare f target => s.alterBranch f target (.withDefaults true)
  | .within f target picks => s.alterBranch f target fun n => Selection.addAll n picks

def Selection.addAll (s : Selection) : List Pick → Selection
  | [] => s
  | p :: ps => Selection.addAll (s.add p) ps

end

end ODataPlan
