import ODataPlan.Text.Percent

/-! Request urls: a path and named query values, written as they are or with the values encoded. -/
namespace ODataPlan

/-- A path and its query parameters in order. -/
structure Url where
  path : String
  params : List (String × String)
deriving DecidableEq

namespace Url

/-- The parameters behind their separators: `?` before the first and `&` before the others. -/
def query (separator : String) : List (String × String) → String
  | [] => ""
  | (name, value) :: rest => separator ++ name ++ "=" ++ value ++ query "&" rest

/-- The url with its values as they are. -/
def canonical (u : Url) : String := u.path ++ query "?" u.params

/-- The url with every value percent-encoded; path and names stay as they are. -/
def encoded (u : Url) : String :=
  u.path ++ query "?" (u.params.map fun p => (p.1, Text.Percent.encode p.2))

end Url

end ODataPlan
