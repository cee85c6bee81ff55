import ODataPlan.Schema.Basic

/-! The ways in which model definitions can contradict each other. -/
namespace ODataPlan

/-- A contradiction among model definitions. Fields are given by their model's name and their own.
-/
inductive SchemaIssue where
  | duplicateModel (model : Name)
  | unknownTarget (model : Name) (field target : String)
  | noKey (model : Name)
  | unknownEndpointField (model : Name) (field : String)
  | mismatchedId (model : Name) (field : String) (id : FieldId)
  | duplicateField (model : Name) (field : String)
  | unregisteredTarget (model : Name) (field : String)
  | noRequestPath (model : Name) (field : String)
  | severalKeys (model : Name)
  | notScalarKey (model : Name) (field : String)
  | keyNotServed (model : Name) (field : String) (dialect : Dialect)
  | notProjectable (model : Name) (id : FieldId) (dialect : Dialect)
deriving DecidableEq, Repr

namespace SchemaIssue

def message : SchemaIssue → String
  | duplicateModel m => s!"model `{m.upperCamel}` is registered more than once"
  | unknownTarget m field target =>
    s!"field `{m.upperCamel}::{field}` expands to `{target}`, which is not registered"
  | noKey m => s!"model `{m.upperCamel}` has no primary key"
  | unknownEndpointField m field => s!"endpoint of `{m.upperCamel}` names unknown field `{field}`"
  | mismatchedId m field id => s!"field `{m.upperCamel}::{field}` has a mismatched id {id.label}"
  | duplicateField m field => s!"field `{m.upperCamel}::{field}` is declared more than once"
  | unregisteredTarget m field =>
    s!"field `{m.upperCamel}::{field}` expands to a model that was not registered"
  | noRequestPath m field =>
    s!"field `{m.upperCamel}::{field}` requires a separate query but declares no REST path"
  | severalKeys m => s!"model `{m.upperCamel}` declares more than one key field"
  | notScalarKey m field => s!"field `{m.upperCamel}::{field}` is not a scalar key field"
  | keyNotServed m field d =>
    s!"key `{m.upperCamel}::{field}` is not served by {d}, but the model has a {d} endpoint"
  | notProjectable m id d =>
    s!"model `{m.upperCamel}` projects field {id.label} on {d}, but it is not a scalar served there"

def failure (i : SchemaIssue) : Failure := .ofKind (.invalidSchema i.message)

end SchemaIssue

end ODataPlan
