import ODataPlan.Text.Quoted
import ODataPlan.Uuid

/-! Literals on the right-hand side of a filter. -/
namespace ODataPlan

inductive Value where
  | null
  | bool (b : Bool)
  | int (n : Int)
  | string (s : String)
  | uuid (u : Uuid)
deriving DecidableEq

/-- The value for display: text in quotes, everything else bare. -/
def Value.display : Value → String
  | .null => "null"
  | .bool b => toString b
  | .int n => toString n
  | .string s => Text.quoted s
  | .uuid u => toString u

instance : ToString Value := ⟨Value.display⟩

end ODataPlan
