import BlockCanvas.Text.Blank

/-!
Comparing what programs print: line ends, trailing white space of lines, and blank lines at either
end do not count.
-/
namespace BlockCanvas.Grading

def unixLineEnds : List Char → List Char
  | '\r' :: '\n' :: cs => '\n' :: unixLineEnds cs
  | c :: cs => c :: unixLineEnds cs
  | [] => []

/-- The lines of a text without their ends. A line feed ends a line, and a carriage return before it
belongs to the end; no line begins behind the last line feed. -/
def endedLines : List Char → List (List Char)
  | [] => []
  | '\n' :: cs => [] :: endedLines cs
  | '\r' :: '\n' :: cs => [] :: endedLines cs
  | c :: cs => Text.consHead c (endedLines cs)

def trimmedLines (text : List Char) : List (List Char) :=
  (endedLines (unixLineEnds text)).map Text.trimEnd

def isFilled (line : List Char) : Bool :=
  !line.isEmpty

def firstFilled (lines : List (List Char)) : Nat :=
  lines.findIdx isFilled

def pastFilled (lines : List (List Char)) : Nat :=
  match lines.reverse.findIdx? isFilled with
  | some fromEnd => lines.length - fromEnd
  | none => firstFilled lines

def filledRange (lines : List (List Char)) : List (List Char) :=
  (lines.take (pastFilled lines)).drop (firstFilled lines)

def normalOutput (text : String) : String :=
  String.ofList (['\n'].intercalate (filledRange (trimmedLines text.toList)))

end BlockCanvas.Grading
