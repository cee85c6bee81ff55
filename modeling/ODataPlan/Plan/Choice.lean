import ODataPlan.Query.Resolve

/-! The choice of the dialect for a whole plan. The dialects that can serve the main model are
narrowed by every field the query names; the preferred one is taken if it survives. -/
namespace ODataPlan

namespace FailureKind

/-- No dialect serves the model in this kind of request. -/
def notQueryable (m : Model) (s : Source) : FailureKind :=
  let shape := match s with
    | .entity => "an entity"
    | .collection => "a collection"
  .notExpressible s!"`{m.name.upperCamel}` cannot be queried as {shape} on any dialect"

def servedNowhere (x : Member) : FailureKind :=
  .unsupportedProperty x.model.name.upperCamel x.field.name

/-- The field is not served by any dialect that the rest of the query leaves. -/
def split (x : Member) (candidates : DialectSet) : FailureKind :=
  .splitDialect <| s!"`{x.fullName}` is only served by {x.field.dialects}, " ++
    s!"but the rest of the query needs {candidates}"

end FailureKind

/-- The candidates that serve every one of the members. -/
def DialectSet.narrow (candidates : DialectSet) : List Member → Outcome DialectSet
  | [] => .ok candidates
  | x :: xs =>
    let left := candidates.inter x.field.dialects
    if left.isEmpty then (FailureKind.split x candidates).raise else left.narrow xs

/-- The dialect of a resolved query. -/
def Resolved.dialect (r : Resolved) (s : Schema) (preferred : Dialect) : Outcome Dialect := do
  let candidates := r.model.dialects r.source
  if candidates.isEmpty then (FailureKind.notQueryable r.model r.source).raise
  else
    let members ← r.named.mapM fun id => Outcome.ofLookup (s.member id)
    match members.find? (·.field.dialects.isEmpty) with
    | some x => (FailureKind.servedNowhere x).raise
    | none =>
      let left ← candidates.narrow members
      return if left.contains preferred then preferred else preferred.other

end ODataPlan
