/-! The two query surfaces a plan can be bound to, what each can load in one request, and data held
once per surface. -/
namespace ODataPlan

/-- A backend query surface. -/
inductive Dialect where
  | rest
  | graph
deriving DecidableEq, Repr

namespace Dialect

def all : List Dialect := [.rest, .graph]

@[simp] theorem mem_all (d : Dialect) : d ∈ all := by cases d <;> decide

/-- The dialect that is not `d`. -/
def other : Dialect → Dialect
  | .rest => .graph
  | .graph => .rest

@[simp] theorem other_other (d : Dialect) : d.other.other = d := by cases d <;> rfl

theorem other_ne (d : Dialect) : d.other ≠ d := by cases d <;> decide

theorem eq_or_eq_other (d e : Dialect) : e = d ∨ e = d.other := by cases d <;> cases e <;> decide

def label : Dialect → String
  | .rest => "REST"
  | .graph => "Graph"

instance : ToString Dialect := ⟨label⟩

end Dialect

/-- What a dialect can express in a single request. -/
structure Capability where
  /-- The most nested `$expand` levels, `none` for no limit. -/
  expandDepth : Option Nat
  /-- Collections can be expanded inline. -/
  expandCollections : Bool
deriving DecidableEq, Repr

/-- An inline expansion at this depth fits in a request; depth one is directly on its root. -/
def Capability.canExpandAt (c : Capability) (depth : Nat) : Bool :=
  match c.expandDepth with
  | none => true
  | some limit => depth ≤ limit

/-- REST expands anything to any depth, Graph single objects on one level. -/
def Dialect.capability : Dialect → Capability
  | .rest => ⟨none, true⟩
  | .graph => ⟨some 1, false⟩

@[simp] theorem Dialect.canExpandAt_rest (depth : Nat) :
    Dialect.rest.capability.canExpandAt depth = true := rfl

@[simp] theorem Dialect.canExpandAt_graph (depth : Nat) :
    Dialect.graph.capability.canExpandAt depth = decide (depth ≤ 1) := rfl

/-- A value for each dialect. -/
structure PerDialect (α : Type) where
  rest : α
  graph : α
deriving DecidableEq, Repr

namespace PerDialect

def get (p : PerDialect α) : Dialect → α
  | .rest => p.rest
  | .graph => p.graph

/-- The values a function has on the dialects. -/
def ofFn (f : Dialect → α) : PerDialect α := ⟨f .rest, f .graph⟩

@[simp] theorem get_ofFn (f : Dialect → α) (d : Dialect) : (ofFn f).get d = f d := by
  cases d <;> rfl

end PerDialect

end ODataPlan
