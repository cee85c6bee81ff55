import ODataPlan.Db

/-! A builder and the database that it made last, used in turn. -/
namespace ODataPlan

/-- The state between two uses: the builder, the last database, and what was sent through its
connection. -/
structure Session where
  builder : Builder := {}
  db : Option Db := none
  sent : Sent := []

namespace Session

def register (s : Session) (m : Definition) : Session := { s with builder := s.builder.register m }

/-- Sets whether Graph is tried before REST in databases built from now on. -/
def preferGraph (s : Session) (graphFirst : Bool) : Session :=
  { s with builder := s.builder.preferGraph graphFirst }

/-- Builds a database over a connection. Without success the one before stays. -/
def build (s : Session) (c : Connection) : Session × Outcome Db :=
  match s.builder.build c with
  | .ok db => ({ s with db := some db, sent := [] }, .ok db)
  | .error e => (s, .error e)

def exec (s : Session) (db : Db) (q : Query) : Session × Outcome Execution :=
  let (result, sent) := (db.exec q).run s.sent
  ({ s with sent }, result)

end Session

end ODataPlan
