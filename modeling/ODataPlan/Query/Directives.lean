import ODataPlan.Distinct
import ODataPlan.Query.Value

/-! Filters, order and paging of a query, with further names to select or expand. -/
namespace ODataPlan

inductive Comparison where
  | eq
  | ne
  | gt
  | ge
  | lt
  | le
deriving DecidableEq, Repr

def Comparison.keyword : Comparison → String
  | .eq => "eq"
  | .ne => "ne"
  | .gt => "gt"
  | .ge => "ge"
  | .lt => "lt"
  | .le => "le"

inductive Direction where
  | asc
  | desc
deriving DecidableEq, Repr

def Direction.keyword : Direction → String
  | .asc => "asc"
  | .desc => "desc"

/-- A predicate on a field given by its logical name. -/
structure Filter where
  field : String
  op : Comparison
  value : Value
deriving DecidableEq

/-- A sort key given by the logical name of its field. -/
structure Order where
  field : String
  direction : Direction
deriving DecidableEq, Repr

def Order.isAscending (o : Order) : Bool := o.direction == .asc

/-- Filters, order, paging, and further names to select or expand. -/
structure Directives where
  top : Option Nat := none
  skip : Option Nat := none
  filters : List Filter := []
  orders : List Order := []
  select : List String := []
  expand : List String := []
deriving DecidableEq

namespace Directives

/-- Adds further directives: a given `top` or `skip` replaces the one before, every list grows by
the entries it does not hold yet. -/
def merge (a b : Directives) : Directives where
  top := b.top <|> a.top
  skip := b.skip <|> a.skip
  filters := appendNew a.filters b.filters
  orders := appendNew a.orders b.orders
  select := appendNew a.select b.select
  expand := appendNew a.expand b.expand

/-- The main request would be filtered, sorted or paged. -/
def shapesPrimary (d : Directives) : Bool :=
  d.top.isSome || d.skip.isSome || !d.filters.isEmpty || !d.orders.isEmpty

end Directives

end ODataPlan
