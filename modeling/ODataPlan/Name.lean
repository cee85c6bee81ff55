import ODataPlan.Text.Words

/-! Names of models: what counts is the sequence of lower-case words, so `TermStore` and
`term_store` are one name. -/
namespace ODataPlan

/-- The words of a model's name. -/
structure Name where
  parts : List String
deriving DecidableEq, Repr

namespace Name

/-- The name that an identifier spells: the pieces of its snake case form. -/
def ofString (s : String) : Name :=
  ⟨((Text.snakeCase s).toList.splitOn '_').map String.ofList⟩

def snake (n : Name) : String := "_".intercalate n.parts

def lowerCamel (n : Name) : String := Text.lowerCamelCase n.snake

/-- The name as `UpperCamel`, the form in which it is shown. -/
def upperCamel (n : Name) : String := Text.upperCamelCase n.snake

@[simp] theorem snake_ofString (s : String) : (ofString s).snake = Text.snakeCase s := by
  apply String.toList_injective
  simp [snake, ofString, String.toList_intercalate, List.map_map, Function.comp_def,
    List.intercalate_splitOn]

example : ofString "TermStore" = ofString "term_store" := by decide +kernel
example : (ofString "default language").upperCamel = "DefaultLanguage" := by decide +kernel

end Name

end ODataPlan
