import ODataPlan.Plan.Projection
import ODataPlan.Selection

/-! How selected expandables are loaded: inline on the request that needs them where the dialect can
do that, else, directly below a single entity, through a request of their own. -/
namespace ODataPlan

namespace FailureKind

def scalarExpanded (x : Member) : FailureKind :=
  .invalidPlan s!"`{x.fullName}` is selected as an expansion but is a scalar"

/-- A separate request would be needed inside an inline expansion. -/
def requestInExpansion (d : Dialect) (parent x : Member) : FailureKind :=
  .notExpressible <| s!"`{x.fullName}` needs a separate request on {d}, " ++
    s!"which is not possible inside the expansion of `{parent.fullName}`"

/-- A separate request would be needed inside a separate request. -/
def requestInRequest (d : Dialect) (parent x : Member) : FailureKind :=
  .notExpressible <| s!"`{x.fullName}` needs a separate request on {d}, " ++
    s!"which is not possible inside the separate request for `{parent.fullName}`"

/-- A separate request would be needed below a collection. -/
def requestBelowCollection (d : Dialect) (x : Member) : FailureKind :=
  .notExpressible <| s!"`{x.fullName}` must be loaded with a separate request on {d}, " ++
    "which is only possible below a single entity"

/-- A separate request would be needed next to a filter, order or paging. -/
def requestWhileShaped (d : Dialect) (x : Member) : FailureKind :=
  .notExpressible <| s!"`{x.fullName}` must be loaded with a separate request on {d}, " ++
    "which cannot be combined with filtering, sorting or paging"

/-- A separate request would be needed but has no path. -/
def noPathForRequest (d : Dialect) (x : Member) : FailureKind :=
  .notExpressible s!"`{x.fullName}` needs a separate request on {d}, but has no request path there"

end FailureKind

/-- An expandable can be expanded inline at a depth; depth one is directly on the request's root. -/
def Expand.canInline (e : Expand τ) (d : Dialect) (depth : Nat) : Bool :=
  !(d == .rest && e.separateQuery) && (!e.collection || d.capability.expandCollections) &&
    d.capability.canExpandAt depth

@[simp] theorem Expand.canInline_rest (e : Expand τ) (depth : Nat) :
    e.canInline .rest depth = !e.separateQuery := by
  simp [canInline, Dialect.capability, Capability.canExpandAt]

@[simp] theorem Expand.canInline_graph (e : Expand τ) (depth : Nat) :
    e.canInline .graph depth = (!e.collection && decide (depth ≤ 1)) := by
  have : (Dialect.graph == Dialect.rest) = false := by decide
  simp [canInline, Dialect.capability, Capability.canExpandAt, this]

def Member.expansion (x : Member) : Outcome (Expand ModelId) :=
  match x.field.type.expand? with
  | some e => .ok e
  | none => (FailureKind.scalarExpanded x).raise

mutual

/-- The entries of an inline expansion at a path and depth. The field of the path is `x`. -/
def Selection.inlineEntries (s : Schema) (d : Dialect) (x : Member) (path : FieldPath)
    (depth : Nat) : Selection → Outcome Projection
  | .mk m fields branches includeDefaults =>
    if fields.isEmpty && branches.isEmpty then .ok ⟨[path], [path]⟩
    else do
      let defaults ← if includeDefaults then s.defaultEntries d path m else pure []
      let scalars ← s.scalarEntries d path fields
      let nested ←
        branches.inlineEntries s d (FailureKind.requestInExpansion d x) path (depth + 1)
      return ⟨defaults ++ scalars, [path]⟩ ++ nested

/-- The entries of the expansions below a path, all of which have to be inline at this depth;
`refuse` says what is wrong with one that cannot be. -/
def Branches.inlineEntries (s : Schema) (d : Dialect) (refuse : Member → FailureKind)
    (path : FieldPath) (depth : Nat) : Branches → Outcome Projection
  | .nil => .ok {}
  | .cons f nested rest => do
    let x ← s.member f
    let e ← x.expansion
    if e.canInline d depth then
      let here ← nested.inlineEntries s d x (path ++ [f]) depth
      let others ← rest.inlineEntries s d refuse path depth
      return here ++ others
    else (refuse x).raise

end

def Selection.requestProjection (s : Schema) (d : Dialect) (x : Member) (target : Model)
    (sel : Selection) : Outcome Projection :=
  if sel.isDefault then target.defaultProjection d
  else do
    let key ← target.keyField
    let leading := if d = .rest then key.entries d [] else []
    let defaults ← if sel.includeDefaults then s.defaultEntries d [] target.id else pure []
    let scalars ← s.scalarEntries d [] sel.fields
    let nested ← sel.branches.inlineEntries s d (FailureKind.requestInRequest d x) [] 1
    return .selecting (leading ++ defaults ++ scalars ++ target.requiredEntries d) ++ nested

/-- The request that loads an expandable on its own. -/
def Selection.followUp (s : Schema) (d : Dialect) (source : Source) (shaped : Bool) (x : Member)
    (e : Expand ModelId) (sel : Selection) : Outcome FollowUp :=
  if source = .collection then (FailureKind.requestBelowCollection d x).raise
  else if shaped then (FailureKind.requestWhileShaped d x).raise
  else
    match e.requestPath.get d with
    | none => (FailureKind.noPathForRequest d x).raise
    | some path => do
      let target ← s.model e.target
      let projection ← sel.requestProjection s d x target
      return ⟨x.field.id, ⟨d, target.id, path, projection.clauses⟩⟩

/-- What loading an expandable adds to the main request, and the request of its own if it takes one.
Without picks within it, its name is selected either way. -/
def Selection.load (s : Schema) (d : Dialect) (source : Source) (shaped : Bool) (x : Member)
    (sel : Selection) : Outcome (Projection × List FollowUp) := do
  let e ← x.expansion
  if e.canInline d 1 then
    let entries ← sel.inlineEntries s d x [x.field.id] 1
    return (entries, [])
  else
    let request ← sel.followUp s d source shaped x e
    return (.selecting (if sel.isDefault then [[x.field.id]] else []), [request])

end ODataPlan
