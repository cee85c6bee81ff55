import ODataPlan.Json.Basic
import ODataPlan.Query.Directives
import ODataPlan.Query.Selector
import ODataPlan.Schema.Basic

/-! Reading the parts of a query from JSON and writing them as JSON. Every part has one written
form; reading accepts a few more. -/
namespace ODataPlan

def Json.ofOption (write : α → Json) : Option α → Json
  | none => .null
  | some a => write a

namespace Dialect

def toJson : Dialect → Json
  | .rest => .string "Rest"
  | .graph => .string "Graph"

def ofJson? (j : Json) : Option Dialect :=
  match j.variant? ["Rest", "Graph"] with
  | some "Rest" => some .rest
  | some "Graph" => some .graph
  | _ => none

end Dialect

namespace Source

def toJson : Source → Json
  | .entity => .string "Entity"
  | .collection => .string "Collection"

def ofJson? (j : Json) : Option Source :=
  match j.variant? ["Entity", "Collection"] with
  | some "Entity" => some .entity
  | some "Collection" => some .collection
  | _ => none

end Source

namespace Comparison

def toJson : Comparison → Json
  | .eq => .string "Eq"
  | .ne => .string "Ne"
  | .gt => .string "Gt"
  | .ge => .string "Ge"
  | .lt => .string "Lt"
  | .le => .string "Le"

def ofJson? (j : Json) : Option Comparison :=
  match j.variant? ["Eq", "Ne", "Gt", "Ge", "Lt", "Le"] with
  | some "Eq" => some .eq
  | some "Ne" => some .ne
  | some "Gt" => some .gt
  | some "Ge" => some .ge
  | some "Lt" => some .lt
  | some "Le" => some .le
  | _ => none

end Comparison

namespace Direction

def toJson : Direction → Json
  | .asc => .string "Asc"
  | .desc => .string "Desc"

def ofJson? (j : Json) : Option Direction :=
  match j.variant? ["Asc", "Desc"] with
  | some "Asc" => some .asc
  | some "Desc" => some .desc
  | _ => none

end Direction

namespace ModelId

def toJson (m : ModelId) : Json := .int m.index

def ofJson? (j : Json) : Option ModelId := j.nat64?.map ModelId.mk

end ModelId

namespace FieldId

def toJson (f : FieldId) : Json := .object [("model", f.model.toJson), ("index", .int f.index)]

def ofJson? (j : Json) : Option FieldId :=
  match j.record? ["model", "index"] with
  | some [some m, some i] => do
    let m ← ModelId.ofJson? m
    let i ← i.nat64?
    return ⟨m, i⟩
  | _ => none

end FieldId

namespace Value

def toJson : Value → Json
  | .null => .string "Null"
  | .bool b => .object [("Bool", .bool b)]
  | .int n => .object [("I64", .int n)]
  | .string s => .object [("String", .string s)]
  | .uuid u => .object [("Uuid", .string (toString u))]

/-- Reads a literal. A uuid may be in any of its written forms. -/
def ofJson? : Json → Option Value
  | .object [("Bool", j)] => j.bool?.map .bool
  | .object [("I64", j)] => j.int64?.map .int
  | .object [("String", j)] => j.text?.map .string
  | .object [("Uuid", j)] => (j.text?.bind Uuid.ofString?).map .uuid
  | j => (j.variant? ["Null"]).map fun _ => .null

end Value

namespace Filter

def toJson (f : Filter) : Json :=
  .object [("field", .string f.field), ("op", f.op.toJson), ("value", f.value.toJson)]

def ofJson? (j : Json) : Option Filter :=
  match j.record? ["field", "op", "value"] with
  | some [some f, some op, some v] => do
    let f ← f.text?
    let op ← Comparison.ofJson? op
    let v ← Value.ofJson? v
    return ⟨f, op, v⟩
  | _ => none

end Filter

namespace Order

def toJson (o : Order) : Json :=
  .object [("field", .string o.field), ("direction", o.direction.toJson)]

def ofJson? (j : Json) : Option Order :=
  match j.record? ["field", "direction"] with
  | some [some f, some d] => do
    let f ← f.text?
    let d ← Direction.ofJson? d
    return ⟨f, d⟩
  | _ => none

end Order

namespace Directives

def toJson (d : Directives) : Json :=
  .object [
    ("top", Json.ofOption (fun n : Nat => .int n) d.top),
    ("skip", Json.ofOption (fun n : Nat => .int n) d.skip),
    ("filter", .array (d.filters.map Filter.toJson)),
    ("order_by", .array (d.orders.map Order.toJson)),
    ("select", .array (d.select.map .string)),
    ("expand", .array (d.expand.map .string))]

/-- Reads directives. In an object, `top` and `skip` may be missing. -/
def ofJson? (j : Json) : Option Directives :=
  match j.record? ["top", "skip", "filter", "order_by", "select", "expand"] with
  | some [top, skip, some filters, some orders, some select, some expand] => do
    let top ← Json.optional? Json.nat64? top
    let skip ← Json.optional? Json.nat64? skip
    let filters ← filters.list? Filter.ofJson?
    let orders ← orders.list? Order.ofJson?
    let select ← select.list? Json.text?
    let expand ← expand.list? Json.text?
    return { top, skip, filters, orders, select, expand }
  | _ => none

end Directives

namespace Selector

mutual

def toJson : Selector → Json
  | .field name => .object [("Field", .string name)]
  | .nested name selectors =>
    .object [("Nested",
      .object [("field", .string name), ("selectors", .array (allToJson selectors))])]

def allToJson : List Selector → List Json
  | [] => []
  | x :: xs => x.toJson :: allToJson xs

end

mutual

def ofJson? : Json → Option Selector
  | .object [(form, data)] =>
    if form = "Field" then data.text?.map .field
    else if form = "Nested" then nestedOfJson? data
    else none
  | _ => none

/-- Reads the record of a nested selector, which must be an object. -/
def nestedOfJson? : Json → Option Selector
  | .object members => do
    let name ← (members.lookup "field").bind Json.text?
    let selectors ← selectorsOfMembers? members
    return .nested name selectors
  | _ => none

/-- Reads the member that holds the nested selectors. -/
def selectorsOfMembers? : List (String × Json) → Option (List Selector)
  | [] => none
  | (name, j) :: rest => if name = "selectors" then listOfJson? j else selectorsOfMembers? rest

def listOfJson? : Json → Option (List Selector)
  | .array xs => allOfJson? xs
  | _ => none

def allOfJson? : List Json → Option (List Selector)
  | [] => some []
  | j :: rest => do
    let x ← ofJson? j
    let xs ← allOfJson? rest
    return x :: xs

end

end Selector

end ODataPlan
