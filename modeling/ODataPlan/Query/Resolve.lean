import ODataPlan.Plan.Basic
import ODataPlan.Query.Basic
import ODataPlan.Query.Pick

/-! A query with every name looked up in the registry. -/
namespace ODataPlan

/-- A query whose names are replaced by ids. -/
structure Resolved where
  model : Model
  source : Source
  /-- What to load, keys included. -/
  selection : Selection
  /-- The fields the query names, without repetition. Keys that are only implied are not among
  them. -/
  named : List FieldId
  filters : List Predicate
  sorts : List SortKey
  top : Option Nat
  skip : Option Nat
  /-- The main request is filtered, sorted or paged. -/
  shaped : Bool

namespace FailureKind

def unknownModel (name : String) : FailureKind := .adHoc s!"model `{name}` is not registered" []

/-- Filters and sorts apply to scalars of the main model only. -/
def notComparable (x : Member) : FailureKind :=
  .notExpressible s!"cannot filter or sort on the expandable `{x.fullName}`"

end FailureKind

/-- The id of a scalar of a model, for a filter or sort. -/
def Model.scalarId (m : Model) (name : String) : Outcome FieldId :=
  match m.field? name with
  | none => (FailureKind.unknownProperty m name).raise
  | some f => if f.isExpandable then (FailureKind.notComparable ⟨m, f⟩).raise else .ok f.id

def Filter.resolve (m : Model) (f : Filter) : Outcome Predicate := do
  let id ← m.scalarId f.field
  return ⟨id, f.op, f.value⟩

def Order.resolve (m : Model) (o : Order) : Outcome SortKey := do
  let id ← m.scalarId o.field
  return ⟨id, o.direction⟩

/-- Looks up the names of a query: selectors first, then filters, then sort keys. -/
def Query.resolve (s : Schema) (q : Query) : Outcome Resolved :=
  match s.modelNamed? q.model with
  | none => (FailureKind.unknownModel q.model).raise
  | some m => do
    let picks ← Selector.resolveAll s m.id q.allSelectors
    let filters ← q.directives.filters.mapM (·.resolve m)
    let sorts ← q.directives.orders.mapM (·.resolve m)
    let selection ← ((Selection.empty m.id).addAll picks).ensureKey s
    return {
      model := m
      source := q.source
      selection
      named := (Pick.namedAll picks ++ filters.map (·.field) ++ sorts.map (·.field)).eraseDups
      filters
      sorts
      top := q.directives.top
      skip := q.directives.skip
      shaped := q.directives.shapesPrimary }

end ODataPlan
