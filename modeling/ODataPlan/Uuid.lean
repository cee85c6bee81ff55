import ODataPlan.Text.Hex

/-! Universally unique identifiers: thirty-two hexadecimal digits, read in four written forms and
written in one. -/
namespace ODataPlan

open Text

/-- Thirty-two hexadecimal digits. -/
structure Uuid where
  digits : List (Fin 16)
  length_digits : digits.length = 32
deriving DecidableEq

namespace Uuid

def groupLengths : List Nat := [8, 4, 4, 4, 12]

/-- A plain run of thirty-two digits of either case. -/
def ofPlain? (cs : List Char) : Option Uuid :=
  (cs.mapM hexValue?).bind fun digits =>
    if h : digits.length = 32 then some ⟨digits, h⟩ else none

/-- Digits with hyphens exactly between the groups. -/
def ofHyphenated? (cs : List Char) : Option Uuid :=
  let groups := cs.splitOn '-'
  if groups.map List.length = groupLengths then ofPlain? groups.flatten else none

/-- What stands between braces or behind `urn:uuid:` (in either case); any other text is left as it
is. -/
def unwrap (cs : List Char) : List Char :=
  if cs.head? = some '\x7b' ∧ cs.getLast? = some '\x7d' then cs.tail.dropLast
  else if (cs.take 9).map Char.toLower = "urn:uuid:".toList then cs.drop 9
  else cs

/-- Reads a plain or hyphenated uuid, the latter also between braces or behind `urn:uuid:`. -/
def ofString? (s : String) : Option Uuid :=
  ofPlain? s.toList <|> ofHyphenated? (unwrap s.toList)

/-- Cuts a list into groups of the given lengths. -/
def cut : List Nat → List α → List (List α)
  | [], _ => []
  | n :: ns, xs => xs.take n :: cut ns (xs.drop n)

/-- The written form: lower-case digits, the groups joined by hyphens. -/
def toString (u : Uuid) : String :=
  String.ofList (['-'].intercalate (cut groupLengths (u.digits.map lowerHex)))

instance : ToString Uuid := ⟨toString⟩

example : (ofString? "67E55044-10B1-426F-9247-BB680E5FE0C8").map toString
    = some "67e55044-10b1-426f-9247-bb680e5fe0c8" := by decide
example : ofString? "urn:uuid:67e5504410b1426f9247bb680e5fe0c8" = none := by decide

end Uuid

end ODataPlan
