import ODataPlan.Dialect
import ODataPlan.Query.Directives
import ODataPlan.Query.Selector
import ODataPlan.Schema.Declaration

/-! Queries against one model, and the calls that build them up. -/
namespace ODataPlan

/-- A declarative query: names only, nothing looked up yet. -/
structure Query where
  model : String
  source : Source
  selectors : List Selector := []
  directives : Directives := {}
  preference : Option Dialect := none

namespace Query

def entity (model : String) : Query := { model, source := .entity }

def collection (model : String) : Query := { model, source := .collection }

def select (q : Query) (selectors : List Selector) : Query :=
  { q with selectors := q.selectors ++ selectors }

/-- Merges directives into those of the query. -/
def withDirectives (q : Query) (d : Directives) : Query :=
  { q with directives := q.directives.merge d }

def filter (q : Query) (f : Filter) : Query := q.withDirectives { filters := [f] }

def orderBy (q : Query) (o : Order) : Query := q.withDirectives { orders := [o] }

def top (q : Query) (n : Nat) : Query := q.withDirectives { top := some n }

def skip (q : Query) (n : Nat) : Query := q.withDirectives { skip := some n }

def prefer (q : Query) (d : Dialect) : Query := { q with preference := some d }

/-- All selectors of a query: its own, then its `select` and `expand` directives read as chains. -/
def allSelectors (q : Query) : List Selector :=
  q.selectors ++ (q.directives.select ++ q.directives.expand).map Selector.ofPath

end Query

/-- One call of the query builder. -/
inductive QueryStep where
  | select (selectors : List Selector)
  | filter (f : Filter)
  | orderBy (o : Order)
  | top (n : Nat)
  | skip (n : Nat)
  | directives (d : Directives)
  | prefer (d : Dialect)

namespace Query

def step (q : Query) : QueryStep → Query
  | .select selectors => q.select selectors
  | .filter f => q.filter f
  | .orderBy o => q.orderBy o
  | .top n => q.top n
  | .skip n => q.skip n
  | .directives d => q.withDirectives d
  | .prefer d => q.prefer d

def steps (q : Query) (calls : List QueryStep) : Query := calls.foldl step q

end Query

end ODataPlan
