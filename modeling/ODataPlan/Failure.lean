import ODataPlan.Text.Layout
import ODataPlan.Text.Quoted

/-! Failures of planning or running a query. A failure is a non-empty chain of kinds, from the
context added last down to the root cause, and is classified by the outermost one. -/
namespace ODataPlan

/-- One condition that can end the planning or the run of a query. -/
inductive FailureKind where
  /-- A condition without a kind of its own, or one reported by other software, with the texts of
  its causes. -/
  | adHoc (text : String) (causes : List String)
  /-- A selector, filter or sort names a property the model does not have. -/
  | schemaMismatch (model property : String)
  /-- A property that no dialect serves. -/
  | unsupportedProperty (model property : String)
  /-- No dialect serves all the properties that are named. -/
  | splitDialect (message : String)
  /-- The selection cannot be written on the chosen dialect. -/
  | notExpressible (message : String)
  /-- The plan breaks the rules of rendering. -/
  | invalidPlan (message : String)
  /-- The model definitions contradict each other. -/
  | invalidSchema (message : String)
  /-- The connection reported a failure, with the texts of its causes. -/
  | connectionFailed (text : String) (causes : List String)
  /-- The response does not match the batch. -/
  | invalidResponse (message : String)
deriving DecidableEq, Repr

namespace FailureKind

def text : FailureKind → String
  | adHoc text _ => text
  | schemaMismatch model property =>
    s!"schema mismatch: model `{model}` has no property `{property}`"
  | unsupportedProperty model property =>
    s!"unsupported property: `{model}::{property}` is not available on any dialect"
  | splitDialect message => s!"split dialect not supported: {message}"
  | notExpressible message => s!"not expressible: {message}"
  | invalidPlan message => s!"invalid plan: {message}"
  | invalidSchema message => s!"invalid schema: {message}"
  | connectionFailed text causes => "connection failed: " ++ ": ".intercalate (text :: causes)
  | invalidResponse message => s!"invalid response: {message}"

def label : FailureKind → String
  | adHoc .. => "Other"
  | schemaMismatch .. => "SchemaMismatch"
  | unsupportedProperty .. => "UnsupportedProperty"
  | splitDialect _ => "SplitDialect"
  | notExpressible _ => "NotExpressible"
  | invalidPlan _ => "InvalidPlan"
  | invalidSchema _ => "InvalidSchema"
  | connectionFailed .. => "ConnectionFailed"
  | invalidResponse _ => "InvalidResponse"

/-- The condition can be asked for by its kind. -/
def isNamed : FailureKind → Bool
  | adHoc .. => false
  | _ => true

/-- The texts of what lies behind a condition that wraps a foreign one, outermost first. -/
def sources : FailureKind → List String
  | k@(adHoc _ causes) => k.text :: causes
  | k@(connectionFailed text causes) => k.text :: text :: causes
  | _ => []

/-- The members under which the texts of a condition are laid out. -/
def members : FailureKind → List (String × String)
  | schemaMismatch model property | unsupportedProperty model property =>
    [("model", model), ("property", property)]
  | adHoc text _ | connectionFailed text _ => [("message", text)]
  | splitDialect message | notExpressible message | invalidPlan message | invalidSchema message
  | invalidResponse message => [("message", message)]

/-- The condition laid out as a record of its members. -/
def layout (k : FailureKind) : List String :=
  Text.Layout.wrapped k.label
    (Text.Layout.record k.label (k.members.map fun m => (m.1, [Text.quoted m.2])))

end FailureKind

/-- A chain of conditions, the one added last in front. -/
structure Failure where
  kind : FailureKind
  causes : List FailureKind
deriving DecidableEq, Repr

namespace Failure

def ofKind (k : FailureKind) : Failure := ⟨k, []⟩

instance : Coe FailureKind Failure := ⟨ofKind⟩

/-- The kinds of a failure, outermost first. -/
def chain (e : Failure) : List FailureKind := e.kind :: e.causes

/-- Puts the outermost kind of `c` in front of `e`. The causes of `c` are dropped. -/
def context (e c : Failure) : Failure := ⟨c.kind, e.chain⟩

/-- Forgets the kind of a failure and keeps its text: what is left of a context that someone else
still holds. -/
def detached (e : Failure) : Failure := ofKind (.adHoc e.kind.text [])

def message (e : Failure) : String := ": ".intercalate (e.chain.map FailureKind.text)

instance : ToString Failure := ⟨message⟩

/-- The texts of the foreign conditions behind the outermost kind. -/
def sources (e : Failure) : List String := e.kind.sources

/-- The failure answers to the name of a kind that can be asked for. -/
def isA (name : String) (e : Failure) : Bool := e.kind.isNamed && e.kind.label == name

@[simp] theorem chain_ofKind (k : FailureKind) : (ofKind k).chain = [k] := rfl

@[simp] theorem chain_context (e c : Failure) : (e.context c).chain = c.kind :: e.chain := rfl

@[simp] theorem kind_context (e c : Failure) : (e.context c).kind = c.kind := rfl

/-- The layout of a kind above its causes. -/
def chainLayout : FailureKind → List FailureKind → List String
  | k, [] => Text.Layout.record "Error" [("kind", k.layout), ("cause", ["None"])]
  | k, c :: cs =>
    Text.Layout.record "Error"
      [("kind", k.layout), ("cause", Text.Layout.wrapped "Some" (chainLayout c cs))]

/-- The failure laid out with its causes nested inside it. -/
def layout (e : Failure) : String := Text.Layout.text (chainLayout e.kind e.causes)

end Failure

end ODataPlan
