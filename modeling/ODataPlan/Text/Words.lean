import ODataPlan.Text.Alphanumeric
import ODataPlan.Text.LetterCase
import ODataPlan.Text.CaseMapping

/-! Splitting an identifier into words, and writing the words again as `snake_case`, `lowerCamel` or
`UpperCamel`. -/
namespace ODataPlan.Text

/-- The case of the word so far: `fresh` at its start; a digit or an uncased letter does not change
it. -/
inductive WordCase where
  | fresh
  | lower
  | upper
deriving DecidableEq, Repr

/-- The case after a character: its own, or the one before it if it has none. -/
def WordCase.after (mode : WordCase) (c : Char) : WordCase :=
  if isLowercase c then .lower else if isUppercase c then .upper else mode

/-- The words of a run of letters and numbers. `word` holds the characters of the current word, last
first. A word ends before an upper-case character that follows a lower-case one, and before the last
of several upper-case characters if a lower-case one follows it. -/
def wordsOfRun (mode : WordCase) (word : List Char) : List Char → List (List Char)
  | [] => []
  | [c] => [(c :: word).reverse]
  | c :: next :: rest =>
    if mode.after c = .lower ∧ isUppercase next then
      (c :: word).reverse :: wordsOfRun .fresh [] (next :: rest)
    else if mode = .upper ∧ isUppercase c ∧ isLowercase next then
      word.reverse :: wordsOfRun .fresh [c] (next :: rest)
    else
      wordsOfRun (mode.after c) (c :: word) (next :: rest)

/-- The words of an identifier: its runs of letters and numbers, each split where the case turns. -/
def words (s : String) : List (List Char) :=
  (s.toList.splitOnP (!isAlphanumeric ·)).flatMap (wordsOfRun .fresh [])

/-- A word in lower case. A sigma at its end takes the final form. -/
def lowerWord : List Char → List Char
  | [] => []
  | [c] => if c = 'Σ' then ['ς'] else toLowercase c
  | c :: rest => toLowercase c ++ lowerWord rest

/-- A word whose first character is in upper case and the others in lower case. -/
def capitalWord : List Char → List Char
  | [] => []
  | c :: rest => toUppercase c ++ lowerWord rest

def snakeCase (s : String) : String :=
  String.ofList (['_'].intercalate ((words s).map lowerWord))

def lowerCamelCase (s : String) : String :=
  match words s with
  | [] => ""
  | w :: ws => String.ofList (lowerWord w ++ ws.flatMap capitalWord)

def upperCamelCase (s : String) : String :=
  String.ofList ((words s).flatMap capitalWord)

example : snakeCase "DefaultLanguage" = "default_language" := by decide
example : lowerCamelCase "XMLHttp_request2" = "xmlHttpRequest2" := by decide
example : upperCamelCase "term store" = "TermStore" := by decide

end ODataPlan.Text
