import BlockCanvas.Text.Blank

/-!
Typed values separated by commas. A comma inside quotes separates nothing; a quote that is never
closed runs to the end.
-/
namespace BlockCanvas.Python

def quoteAfter (quote : Option Char) (c : Char) : Option Char :=
  match quote with
  | some q => if c == q then none else some q
  | none => if c == '"' || c == '\'' then some c else none

def splitFrom (quote : Option Char) : List Char → List (List Char)
  | [] => [[]]
  | c :: cs =>
    if quote == none && c == ',' then [] :: splitFrom none cs
    else Text.consHead c (splitFrom (quoteAfter quote c) cs)

/-- The parts between the commas outside quotes. -/
def splitCommas (text : String) : List String :=
  (splitFrom none text.toList).map String.ofList

end BlockCanvas.Python
