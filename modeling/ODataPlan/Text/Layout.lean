/-! Nested values laid out one entry to a line, four spaces deeper at each level. A layout is its
list of lines. -/
namespace ODataPlan.Text.Layout

def indent (ls : List String) : List String := ls.map ("    " ++ ·)

/-- The lines with a text put in front of the first. -/
def label (text : String) : List String → List String
  | [] => [text]
  | l :: ls => (text ++ l) :: ls

/-- The lines with a comma behind the last. -/
def comma : List String → List String
  | [] => [","]
  | [l] => [l ++ ","]
  | l :: ls => l :: comma ls

/-- Entries between an opening and a closing text; without entries both stand on one line. -/
def block (opening closing : String) (entries : List (List String)) : List String :=
  if entries.isEmpty then [opening ++ closing]
  else opening :: entries.flatMap (fun e => indent (comma e)) ++ [closing]

/-- A named record of labelled members. -/
def record (name : String) (members : List (String × List String)) : List String :=
  block (name ++ " \x7b") "\x7d" (members.map fun m => label (m.1 ++ ": ") m.2)

/-- A constructor with one argument. -/
def wrapped (name : String) (argument : List String) : List String :=
  block (name ++ "(") ")" [argument]

def text (ls : List String) : String := "\n".intercalate ls

example : text (record "P" [("x", ["1"]), ("y", wrapped "Some" ["2"])])
    = "P \x7b\n    x: 1,\n    y: Some(\n        2,\n    ),\n\x7d" := by decide

end ODataPlan.Text.Layout
