import ODataPlan.Text.GraphemeExtend
import ODataPlan.Text.Printable

/-! Text in double quotes for display: what would not show is written as an escape. -/
namespace ODataPlan.Text

/-- The numeric escape of a character, its code point in lower-case hexadecimal. -/
def numericEscape (c : Char) : List Char :=
  ['\\', 'u', '\x7b'] ++ Nat.toDigits 16 c.toNat ++ ['\x7d']

/-- How a character is written inside the quotes. The single quote stands for itself. -/
def quotedChar (c : Char) : List Char :=
  if c = '\x00' then ['\\', '0']
  else if c = '\t' then ['\\', 't']
  else if c = '\r' then ['\\', 'r']
  else if c = '\n' then ['\\', 'n']
  else if c = '\\' ∨ c = '"' then ['\\', c]
  else if isPrintable c && !isAttached c then [c]
  else numericEscape c

/-- A text between double quotes, with escapes for what would not show. -/
def quoted (s : String) : String :=
  String.ofList ('"' :: s.toList.flatMap quotedChar ++ ['"'])

example : quoted "it's \"x\"\n" = "\"it's \\\"x\\\"\\n\"" := by decide
example : quoted "e\u0301\x07" = "\"e\\u\x7b301\x7d\\u\x7b7\x7d\"" := by decide

end ODataPlan.Text
