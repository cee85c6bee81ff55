import ODataPlan.Plan.Choice
import ODataPlan.Plan.Expansion

/-! From a resolved query to its plan. -/
namespace ODataPlan

namespace FailureKind

/-- The chosen dialect has no path for the main request. -/
def noEndpoint (m : Model) (d : Dialect) : FailureKind :=
  .invalidPlan s!"`{m.name.upperCamel}` has no {d} endpoint for the chosen dialect"

end FailureKind

namespace Resolved

/-- The expandables of the main model that are selected, in declaration order. -/
def expansions (r : Resolved) : List (Member × Selection) :=
  r.model.members.filterMap fun x => (r.selection.branches.get? x.field.id).map (x, ·)

/-- What the main request projects and the requests beside it: the key, the other selected scalars
and then the expandables in declaration order, and the required fields. -/
def projection (r : Resolved) (s : Schema) (d : Dialect) : Outcome (Projection × List FollowUp) :=
  if r.selection.isDefault then do
    let p ← r.model.defaultProjection d
    return (p, [])
  else do
    let key ← r.model.keyField
    let scalars := r.model.fields.filter fun f =>
      f.id != r.model.key && r.selection.fields.contains f.id
    let loaded ← r.expansions.mapM fun x => x.2.load s d r.source r.shaped x.1
    let entries := key.entries d [] ++ scalars.flatMap (·.entries d [])
    return (.selecting entries ++ .concat (loaded.map (·.1)) ++
      .selecting (r.model.requiredEntries d), loaded.flatMap (·.2))

/-- The clauses that filter, sort and page the main request. -/
def shapingClauses (r : Resolved) : List Clause :=
  (if r.filters.isEmpty then [] else [.filter r.filters]) ++
  (if r.sorts.isEmpty then [] else [.orderBy r.sorts]) ++
  (r.top.map Clause.top).toList ++ (r.skip.map Clause.skip).toList

def plan (r : Resolved) (s : Schema) (preferred : Dialect) : Outcome Plan := do
  let d ← r.dialect s preferred
  match r.model.path? d r.source with
  | none => (FailureKind.noEndpoint r.model d).raise
  | some path =>
    let (p, followUps) ← r.projection s d
    return ⟨d, ⟨d, r.model.id, path, p.clauses ++ r.shapingClauses⟩, followUps⟩

end Resolved

/-- The plan of a query; `preferred` is the dialect to try first if the query names none. -/
def Query.plan (q : Query) (s : Schema) (preferred : Dialect) : Outcome Plan := do
  let r ← q.resolve s
  r.plan s (q.preference.getD preferred)

end ODataPlan
