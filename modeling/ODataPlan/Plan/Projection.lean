import ODataPlan.Plan.Basic

/-! What an operation projects: the entries due for `$select` and `$expand`, in order. An entry that
is due twice stays at its first place when the clauses are made. -/
namespace ODataPlan

/-- Entries for `$select` and `$expand`. -/
structure Projection where
  select : List FieldPath := []
  expand : List FieldPath := []
deriving DecidableEq

namespace Projection

def selecting (paths : List FieldPath) : Projection := ⟨paths, []⟩

/-- The entries of both, those of the first in front. -/
def append (p q : Projection) : Projection := ⟨p.select ++ q.select, p.expand ++ q.expand⟩

instance : Append Projection := ⟨append⟩

@[simp] theorem select_append (p q : Projection) : (p ++ q).select = p.select ++ q.select := rfl

@[simp] theorem expand_append (p q : Projection) : (p ++ q).expand = p.expand ++ q.expand := rfl

@[simp] theorem select_selecting (ps : List FieldPath) : (selecting ps).select = ps := rfl

@[simp] theorem expand_selecting (ps : List FieldPath) : (selecting ps).expand = [] := rfl

/-- The entries of several projections, in turn. -/
def concat : List Projection → Projection
  | [] => {}
  | p :: ps => p ++ concat ps

@[simp] theorem select_concat (ps : List Projection) :
    (concat ps).select = ps.flatMap Projection.select := by
  induction ps with
  | nil => rfl
  | cons p ps ih => simp [concat, ih]

@[simp] theorem expand_concat (ps : List Projection) :
    (concat ps).expand = ps.flatMap Projection.expand := by
  induction ps with
  | nil => rfl
  | cons p ps ih => simp [concat, ih]

/-- The clauses of the entries, each entry once. No entries make no clause. -/
def clauses (p : Projection) : List Clause :=
  (if p.select.isEmpty then [] else [.select p.select.eraseDups]) ++
  (if p.expand.isEmpty then [] else [.expand p.expand.eraseDups])

end Projection

/-- The entry of a scalar below a path, if the dialect serves it. -/
def Field.entries (d : Dialect) (path : FieldPath) (f : Field) : List FieldPath :=
  if f.supports d then [path ++ [f.id]] else []

namespace Model

/-- The default set of a model on a dialect: the fixed fields of its endpoint, else the fields
flagged as defaults. -/
def defaultIds (m : Model) (d : Dialect) : List FieldId :=
  match (m.endpoint.get d).map Endpoint.defaultSelect with
  | some (.fields fs) => fs
  | _ => (m.defaultFields d).map (·.id)

def requiredEntries (m : Model) (d : Dialect) : List FieldPath :=
  match m.endpoint.get d with
  | none => []
  | some e => e.required.map ([·])

/-- What a request for a model projects when nothing is selected: nothing if that is implicit, else
the default set with the key (in front on REST, behind on Graph) and the required fields. -/
def defaultProjection (m : Model) (d : Dialect) : Except Dangling Projection :=
  if (m.endpoint.get d).map Endpoint.defaultSelect = some .implicit then .ok {}
  else do
    let key ← m.keyField
    let leading := if d = .rest then key.entries d [] else []
    return .selecting (leading ++ (m.defaultIds d).map ([·]) ++ key.entries d [] ++
      m.requiredEntries d)

end Model

namespace Schema

def scalarEntries (s : Schema) (d : Dialect) (path : FieldPath) (ids : List FieldId) :
    Except Dangling (List FieldPath) := do
  let xs ← ids.mapM s.member
  return xs.flatMap (·.field.entries d path)

/-- The entries of the default set of a model below a path. -/
def defaultEntries (s : Schema) (d : Dialect) (path : FieldPath) (m : ModelId) :
    Except Dangling (List FieldPath) := do
  let owner ← s.model m
  s.scalarEntries d path (owner.defaultIds d)

end Schema

end ODataPlan
