/-! JSON values, and the shapes in which records and variants are read from them. -/
namespace ODataPlan

/-- A JSON value. A number written with a fraction or exponent is kept apart from the integers. -/
inductive Json where
  | null
  | bool (b : Bool)
  | int (n : Int)
  | decimal (mantissa exponent : Int)
  | string (s : String)
  | array (xs : List Json)
  | object (members : List (String × Json))
deriving Inhabited

namespace Json

def text? : Json → Option String
  | string s => some s
  | _ => none

def bool? : Json → Option Bool
  | bool b => some b
  | _ => none

def int64? : Json → Option Int
  | int n => if -9223372036854775808 ≤ n ∧ n ≤ 9223372036854775807 then some n else none
  | _ => none

def nat64? : Json → Option Nat
  | int n => if 0 ≤ n ∧ n ≤ 18446744073709551615 then some n.toNat else none
  | _ => none

/-- The elements of an array, each read. -/
def list? (read : Json → Option α) : Json → Option (List α)
  | array xs => xs.mapM read
  | _ => none

/-- A member that may be missing or null. -/
def optional? (read : Json → Option α) : Option Json → Option (Option α)
  | none | some null => some none
  | some j => (read j).map some

/-- The members of a record in order, read from an object (members of other names are passed over)
or from an array of exactly as many elements. -/
def record? (names : List String) : Json → Option (List (Option Json))
  | object members => some (names.map fun n => members.lookup n)
  | array xs => if xs.length = names.length then some (xs.map some) else none
  | _ => none

/-- A variant of these names without data: its name alone, or an object with null under it. -/
def variant? (names : List String) : Json → Option String
  | string s => if s ∈ names then some s else none
  | object [(s, null)] => if s ∈ names then some s else none
  | _ => none

end Json

end ODataPlan
