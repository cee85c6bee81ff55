/-! Selectors: which properties of a model to load, by logical name. -/
namespace ODataPlan

/-- A property, or properties to load within an expandable one. -/
inductive Selector where
  | field (name : String)
  | nested (name : String) (selectors : List Selector)

namespace Selector

def name : Selector → String
  | field name => name
  | nested name _ => name

/-- A chain of properties, each within the one before. -/
def ofSegments : List String → Selector
  | [] => field ""
  | [s] => field s
  | s :: rest => nested s [ofSegments rest]

/-- Reads a chain of properties separated by dots. -/
def ofPath (path : String) : Selector :=
  ofSegments ((path.toList.splitOn '.').map String.ofList)

@[simp] theorem name_field (n : String) : (field n).name = n := rfl

@[simp] theorem name_nested (n : String) (xs : List Selector) : (nested n xs).name = n := rfl

end Selector

end ODataPlan
