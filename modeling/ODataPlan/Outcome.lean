import ODataPlan.Failure

/-! What an operation on a registry comes to: a value, a failure to report, or an id that leads
nowhere. -/
namespace ODataPlan

/-- An id that cannot be followed. -/
inductive Dangling where
  /-- The registry has no model of this id. -/
  | model
  /-- The model has no field of this index. -/
  | field
  /-- The field id belongs to another model, or its field cannot stand where it is used. -/
  | foreign
deriving DecidableEq, Repr

/-- Why an operation gives no value. -/
inductive Stop where
  | failed (e : Failure)
  | dangling (d : Dangling)
deriving DecidableEq, Repr

/-- A value, or why there is none. -/
abbrev Outcome := Except Stop

instance : Coe Dangling Stop := ⟨.dangling⟩

/-- Ends an operation with a failure of one kind. -/
def FailureKind.raise (k : FailureKind) : Outcome α := .error (.failed k)

/-- Lets a look-up take part in an operation. -/
def Outcome.ofLookup : Except Dangling α → Outcome α
  | .ok a => .ok a
  | .error d => .error (.dangling d)

instance : MonadLift (Except Dangling) Outcome := ⟨Outcome.ofLookup⟩

end ODataPlan
