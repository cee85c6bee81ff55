import ODataPlan.Url.Render

/-! The rendered requests of a plan, with a note for each follow-up of the field it fills. -/
namespace ODataPlan

/-- A rendered request. Every request reads. -/
structure Request where
  id : Nat
  dialect : Dialect
  url : Url
deriving DecidableEq

def Request.method (_ : Request) : String := "GET"

/-- Where the answer to a follow-up belongs. -/
structure Merge where
  /-- The id of the follow-up request. -/
  request : Nat
  /-- The expandable of the main entity that it fills. -/
  field : FieldId
  /-- The logical name of that field. -/
  fieldName : String
  /-- The model of what is loaded. -/
  model : ModelId
deriving DecidableEq

/-- The requests of a query: a main one, and follow-ups with where they belong. -/
structure Batch where
  primary : Request
  followUps : List (Request × Merge)
deriving DecidableEq

namespace Batch

def requests (b : Batch) : List Request := b.primary :: b.followUps.map (·.1)

def merges (b : Batch) : List Merge := b.followUps.map (·.2)

def size (b : Batch) : Nat := b.requests.length

def urls (b : Batch) : List String := b.requests.map (·.url.canonical)

end Batch

def Operation.request (op : Operation) (s : Schema) (d : Dialect) (id : Nat) : Outcome Request := do
  let url ← s.render d op
  return ⟨id, op.dialect, url⟩

/-- A follow-up as the request of an id, with where it belongs. -/
def FollowUp.request (f : FollowUp) (s : Schema) (d : Dialect) (id : Nat) :
    Outcome (Request × Merge) := do
  let request ← f.operation.request s d id
  let x ← s.member f.field
  return (request, ⟨id, f.field, x.field.name, f.operation.model⟩)

/-- The rendered plan: the main request has id zero, the follow-ups the ids from one on. -/
def Plan.batch (p : Plan) (s : Schema) : Outcome Batch := do
  let primary ← p.primary.request s p.dialect 0
  let followUps ← (p.followUps.zipIdx 1).mapM fun x => x.1.request s p.dialect x.2
  return ⟨primary, followUps⟩

end ODataPlan
