import ODataPlan.Query.Directives
import ODataPlan.Schema.Basic

/-! Plans: the requests of a query, bound to one dialect, with fields still given by their ids. -/
namespace ODataPlan

/-- A chain of fields that starts at the model of an operation. -/
abbrev FieldPath := List FieldId

def FieldPath.label (p : FieldPath) : String :=
  "FieldPath([" ++ ", ".intercalate (p.map FieldId.label) ++ "])"

structure Predicate where
  field : FieldId
  op : Comparison
  value : Value
deriving DecidableEq

structure SortKey where
  field : FieldId
  direction : Direction
deriving DecidableEq, Repr

/-- One query-string clause of an operation. -/
inductive Clause where
  | select (paths : List FieldPath)
  | expand (paths : List FieldPath)
  | filter (predicates : List Predicate)
  | orderBy (sorts : List SortKey)
  | top (n : Nat)
  | skip (n : Nat)
deriving DecidableEq

def Clause.name : Clause → String
  | select _ => "$select"
  | expand _ => "$expand"
  | filter _ => "$filter"
  | orderBy _ => "$orderby"
  | top _ => "$top"
  | skip _ => "$skip"

/-- A single request: a path template and its clauses in order. -/
structure Operation where
  dialect : Dialect
  model : ModelId
  path : String
  clauses : List Clause
deriving DecidableEq

/-- A request of its own for one expandable field of the main entity. -/
structure FollowUp where
  field : FieldId
  operation : Operation
deriving DecidableEq

/-- The requests of a query, all on one dialect. -/
structure Plan where
  dialect : Dialect
  primary : Operation
  followUps : List FollowUp
deriving DecidableEq

namespace Plan

/-- One request loads everything. -/
def isSingle (p : Plan) : Bool := p.followUps.isEmpty

def operations (p : Plan) : List Operation := p.primary :: p.followUps.map FollowUp.operation

end Plan

end ODataPlan
