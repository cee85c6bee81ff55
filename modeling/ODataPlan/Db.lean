import ODataPlan.Batch
import ODataPlan.Definition.Resolve
import ODataPlan.Plan.Planner
import ODataPlan.Response

/-! Planning, rendering and running queries against a registry and a connection. -/
namespace ODataPlan

/-- What issues batches: the response to a batch, or a failure. -/
abbrev Connection := Batch → Except Failure Response

/-- A registry, the dialect to try first, and a connection. -/
structure Db where
  schema : Schema
  preferred : Dialect
  connection : Connection

structure Execution where
  batch : Batch
  response : Response
deriving DecidableEq

namespace Execution

def primary (x : Execution) : String := (x.response.body? x.batch.primary.id).getD ""

/-- The bodies of the follow-ups with where they belong. -/
def followUps (x : Execution) : List (Merge × String) :=
  x.batch.merges.map fun m => (m, (x.response.body? m.request).getD "")

end Execution

namespace FailureKind

def missingBody (r : Request) : FailureKind :=
  .invalidResponse s!"no body for request #{r.id} `{r.url.canonical}`"

end FailureKind

/-- The batches handed to a connection, in order. -/
abbrev Sent := List Batch

namespace Db

/-- Hands a batch to the connection and notes that. -/
def send (db : Db) (b : Batch) : StateM Sent (Except Failure Response) := do
  modify (· ++ [b])
  return db.connection b

def plan (db : Db) (q : Query) : Outcome Plan := q.plan db.schema db.preferred

def prepare (db : Db) (q : Query) : Outcome Batch := do
  let p ← db.plan q
  p.batch db.schema

/-- The batch with its response, if that answers every request. -/
def accept (b : Batch) (r : Response) : Outcome Execution :=
  match b.requests.find? fun request => (r.body? request.id).isNone with
  | some request => (FailureKind.missingBody request).raise
  | none => .ok ⟨b, r⟩

/-- Runs a query: only a batch that could be prepared is sent. -/
def exec (db : Db) (q : Query) : StateM Sent (Outcome Execution) :=
  match db.prepare q with
  | .error e => return .error e
  | .ok b => do
    match ← db.send b with
    | .error e => return .error (.failed e)
    | .ok r => return accept b r

end Db

/-- Definitions to be registered, and which dialect to try first. -/
structure Builder where
  definitions : List Definition := []
  graphFirst : Bool := true

namespace Builder

def register (b : Builder) (m : Definition) : Builder :=
  { b with definitions := b.definitions ++ [m] }

/-- Sets whether Graph is tried before REST. -/
def preferGraph (b : Builder) (graphFirst : Bool) : Builder := { b with graphFirst }

def preferred (b : Builder) : Dialect := if b.graphFirst then .graph else .rest

/-- The registry of the definitions, or the first thing wrong with them. -/
def schema (b : Builder) : Except SchemaIssue Schema := Schema.ofDefinitions b.definitions

def build (b : Builder) (connection : Connection) : Outcome Db :=
  match b.schema with
  | .ok s => .ok ⟨s, b.preferred, connection⟩
  | .error i => .error (.failed i.failure)

end Builder

end ODataPlan
