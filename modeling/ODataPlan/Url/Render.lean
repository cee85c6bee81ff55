import ODataPlan.Plan.Basic
import ODataPlan.Url.Basic

/-! Rendering an operation as a url of one dialect. An operation that breaks a rule of rendering is
refused with the first rule it breaks, clause by clause. -/
namespace ODataPlan

namespace FailureKind

def otherDialect (operation renderer : Dialect) : FailureKind :=
  .invalidPlan s!"{operation} operation handed to the {renderer} serializer"

def repeatedClause (name : String) : FailureKind :=
  .invalidPlan s!"operation carries more than one `{name}` clause"

def emptyClause (name entries : String) : FailureKind :=
  .invalidPlan s!"`{name}` with no {entries}"

def emptyPath : FailureKind := .invalidPlan "empty field path"

def noWireName (x : Member) (d : Dialect) : FailureKind :=
  .invalidPlan s!"field `{x.fullName}` has no {d} name"

/-- The expansion is too deep for one request. -/
def tooManyLevels (d : Dialect) (levels : Nat) : FailureKind :=
  .invalidPlan s!"{d} cannot expand {levels} levels in one request"

def notExpandable (x : Member) : FailureKind := .invalidPlan s!"`{x.fullName}` is not expandable"

/-- The dialect expands no collections. -/
def collectionInline (d : Dialect) (x : Member) : FailureKind :=
  .invalidPlan s!"{d} cannot expand the collection `{x.fullName}` inline"

end FailureKind

/-- The written form of a literal. Quotes inside a text are doubled; REST marks a uuid. -/
def Value.literal (d : Dialect) : Value → String
  | .null => "null"
  | .bool b => toString b
  | .int n => toString n
  | .string s =>
    String.ofList ('\'' :: s.toList.flatMap (fun c => if c = '\'' then [c, c] else [c]) ++ ['\''])
  | .uuid u =>
    match d with
    | .rest => "guid'" ++ toString u ++ "'"
    | .graph => toString u

namespace Schema

def wireName (s : Schema) (d : Dialect) (id : FieldId) : Outcome String := do
  let x ← s.member id
  match x.field.wireName.get d with
  | some name => return name
  | none => (FailureKind.noWireName x d).raise

/-- A path as names joined by slashes. -/
def pathText (s : Schema) (d : Dialect) (p : FieldPath) : Outcome String :=
  if p.isEmpty then FailureKind.emptyPath.raise
  else do
    let names ← p.mapM (s.wireName d)
    return "/".intercalate names

/-- Every step of an expansion is one that the dialect expands inline. -/
def checkSteps (s : Schema) (d : Dialect) : FieldPath → Outcome Unit
  | [] => .ok ()
  | id :: rest => do
    let x ← s.member id
    match x.field.type.expand? with
    | none => (FailureKind.notExpandable x).raise
    | some e =>
      if e.collection && !d.capability.expandCollections then
        (FailureKind.collectionInline d x).raise
      else s.checkSteps d rest

/-- An expansion is within the limits of the dialect. -/
def checkExpand (s : Schema) (d : Dialect) (p : FieldPath) : Outcome Unit :=
  if d.capability.canExpandAt p.length then s.checkSteps d p
  else (FailureKind.tooManyLevels d p.length).raise

def predicateText (s : Schema) (d : Dialect) (p : Predicate) : Outcome String := do
  let name ← s.wireName d p.field
  return name ++ " " ++ p.op.keyword ++ " " ++ p.value.literal d

def sortText (s : Schema) (d : Dialect) (k : SortKey) : Outcome String := do
  let name ← s.wireName d k.field
  return name ++ " " ++ k.direction.keyword

/-- The query value of a clause. All expansions are checked before any is written. -/
def clauseText (s : Schema) (d : Dialect) : Clause → Outcome String
  | .select paths =>
    if paths.isEmpty then (FailureKind.emptyClause "$select" "fields").raise
    else (",".intercalate ·) <$> paths.mapM (s.pathText d)
  | .expand paths =>
    if paths.isEmpty then (FailureKind.emptyClause "$expand" "fields").raise
    else do
      paths.forM (s.checkExpand d)
      (",".intercalate ·) <$> paths.mapM (s.pathText d)
  | .filter predicates =>
    if predicates.isEmpty then (FailureKind.emptyClause "$filter" "predicates").raise
    else (" and ".intercalate ·) <$> predicates.mapM (s.predicateText d)
  | .orderBy sorts =>
    if sorts.isEmpty then (FailureKind.emptyClause "$orderby" "keys").raise
    else (",".intercalate ·) <$> sorts.mapM (s.sortText d)
  | .top n | .skip n => .ok (toString n)

/-- The query parameters of clauses; `seen` holds the names of those before. -/
def params (s : Schema) (d : Dialect) (seen : List String) :
    List Clause → Outcome (List (String × String))
  | [] => .ok []
  | c :: rest =>
    if c.name ∈ seen then (FailureKind.repeatedClause c.name).raise
    else do
      let value ← s.clauseText d c
      let others ← s.params d (c.name :: seen) rest
      return (c.name, value) :: others

def render (s : Schema) (d : Dialect) (op : Operation) : Outcome Url :=
  if op.dialect = d then do
    let params ← s.params d [] op.clauses
    return ⟨op.path, params⟩
  else (FailureKind.otherDialect op.dialect d).raise

end Schema

end ODataPlan
