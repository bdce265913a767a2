/-!
White space (Unicode's `White_Space` property), trimming by it, and splitting a text into pieces.
-/
namespace BlockCanvas.Text

def isBlank (c : Char) : Bool :=
  let n := c.toNat
  (9 ≤ n && n ≤ 13) || n == 32 || n == 0x85 || n == 0xA0 || n == 0x1680 ||
    (0x2000 ≤ n && n ≤ 0x200A) || n == 0x2028 || n == 0x2029 || n == 0x202F || n == 0x205F ||
    n == 0x3000

def trimStart (cs : List Char) : List Char :=
  cs.dropWhile isBlank

def trimEnd (cs : List Char) : List Char :=
  (cs.reverse.dropWhile isBlank).reverse

def trim (cs : List Char) : List Char :=
  trimEnd (trimStart cs)

def allBlank (s : String) : Bool :=
  s.toList.all isBlank

def trimmed (s : String) : String :=
  String.ofList (trim s.toList)

def consHead (c : Char) : List (List Char) → List (List Char)
  | [] => [[c]]
  | piece :: pieces => (c :: piece) :: pieces

/-- White space inside markup and between the tokens of a data format: space, tab, line feed and
carriage return only. -/
def isSpacing (c : Char) : Bool :=
  c == ' ' || c == '\t' || c == '\n' || c == '\r'

/-- Lower-cases ASCII letters. Every keyword of the library is ASCII and no letter outside ASCII has
a lower case made of the letters they use, so this decides keywords as full lower-casing does. -/
def lowered (s : String) : String :=
  String.ofList (s.toList.map Char.toLower)

end BlockCanvas.Text
