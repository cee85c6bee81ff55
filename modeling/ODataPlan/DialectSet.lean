import ODataPlan.Dialect
import ODataPlan.Text.Layout

/-! Subsets of the two dialects. -/
namespace ODataPlan

/-- A set of dialects, by membership of each. -/
structure DialectSet where
  rest : Bool
  graph : Bool
deriving DecidableEq

namespace DialectSet

def contains (s : DialectSet) : Dialect → Bool
  | .rest => s.rest
  | .graph => s.graph

def ofPred (p : Dialect → Bool) : DialectSet := ⟨p .rest, p .graph⟩

@[simp] theorem contains_ofPred (p : Dialect → Bool) (d : Dialect) :
    (ofPred p).contains d = p d := by
  cases d <;> rfl

@[ext] theorem ext {s t : DialectSet} (h : ∀ d, s.contains d = t.contains d) : s = t := by
  obtain ⟨a, b⟩ := s
  obtain ⟨c, d⟩ := t
  have h₁ : a = c := h .rest
  have h₂ : b = d := h .graph
  rw [h₁, h₂]

def none : DialectSet := ofPred fun _ => false

def all : DialectSet := ofPred fun _ => true

def only (d : Dialect) : DialectSet := ofPred (· == d)

def insert (s : DialectSet) (d : Dialect) : DialectSet := ofPred fun e => e == d || s.contains e

def inter (s t : DialectSet) : DialectSet := ofPred fun d => s.contains d && t.contains d

def ofList (ds : List Dialect) : DialectSet := ofPred ds.contains

/-- The members, in the fixed order of the dialects. -/
def toList (s : DialectSet) : List Dialect := Dialect.all.filter s.contains

def isEmpty (s : DialectSet) : Bool := !s.rest && !s.graph

@[simp] theorem contains_none (d : Dialect) : none.contains d = false := contains_ofPred ..

@[simp] theorem contains_all (d : Dialect) : all.contains d = true := contains_ofPred ..

@[simp] theorem contains_only (d e : Dialect) : (only d).contains e = (e == d) :=
  contains_ofPred ..

@[simp] theorem contains_insert (s : DialectSet) (d e : Dialect) :
    (s.insert d).contains e = (e == d || s.contains e) := contains_ofPred ..

@[simp] theorem contains_inter (s t : DialectSet) (d : Dialect) :
    (s.inter t).contains d = (s.contains d && t.contains d) := contains_ofPred ..

@[simp] theorem contains_ofList (ds : List Dialect) (d : Dialect) :
    (ofList ds).contains d = ds.contains d := contains_ofPred ..

@[simp] theorem mem_toList {s : DialectSet} {d : Dialect} : d ∈ s.toList ↔ s.contains d = true := by
  simp [toList]

theorem isEmpty_eq_true_iff {s : DialectSet} : s.isEmpty = true ↔ ∀ d, s.contains d = false := by
  obtain ⟨a, b⟩ := s
  constructor
  · intro h d
    cases a <;> cases b <;> cases d <;> simp_all [isEmpty, contains]
  · intro h
    have h₁ : a = false := h .rest
    have h₂ : b = false := h .graph
    simp [isEmpty, h₁, h₂]

def label (s : DialectSet) : String :=
  if s.isEmpty then "no dialect" else " or ".intercalate (s.toList.map Dialect.label)

instance : ToString DialectSet := ⟨label⟩

def memberNames (s : DialectSet) : List String :=
  s.toList.map fun
    | .rest => "Rest"
    | .graph => "Graph"

def listing (s : DialectSet) : String := "\x7b" ++ ", ".intercalate s.memberNames ++ "\x7d"

/-- The members between braces, one to a line. -/
def layout (s : DialectSet) : String :=
  Text.Layout.text (Text.Layout.block "\x7b" "\x7d" (s.memberNames.map ([·])))

end DialectSet

end ODataPlan
