/-!
The characters of XML: which may stand in a document, which begin a name, which go on in one.
-/
namespace BlockCanvas.Xml

def isChar (eleven : Bool) (c : Char) : Bool :=
  let n := c.toNat
  if eleven then 1 ≤ n && n != 0xFFFE && n != 0xFFFF
  else n == 9 || n == 10 || n == 13 || (0x20 ≤ n && n != 0xFFFE && n != 0xFFFF)

/-- XML 1.1 lets most control characters stand only as references. -/
def isLiteralChar (eleven : Bool) (c : Char) : Bool :=
  let n := c.toNat
  isChar eleven c && !(eleven && ((n < 0x20 && n != 9 && n != 10 && n != 13) ||
    (0x7F ≤ n && n ≤ 0x9F && n != 0x85)))

def isNameStart (c : Char) : Bool :=
  let n := c.toNat
  c.isAlpha || c == '_' || (0xC0 ≤ n && n ≤ 0x2FF && n != 0xD7 && n != 0xF7) ||
    (0x370 ≤ n && n ≤ 0x1FFF && n != 0x37E) || n == 0x200C || n == 0x200D ||
    (0x2070 ≤ n && n ≤ 0x218F) || (0x2C00 ≤ n && n ≤ 0x2FEF) || (0x3001 ≤ n && n ≤ 0xD7FF) ||
    (0xF900 ≤ n && n ≤ 0xFDCF) || (0xFDF0 ≤ n && n ≤ 0xFFFD) || (0x10000 ≤ n && n ≤ 0xEFFFF)

def isNameChar (c : Char) : Bool :=
  let n := c.toNat
  isNameStart c || c.isDigit || c == '-' || c == '.' || n == 0xB7 || (0x300 ≤ n && n ≤ 0x36F) ||
    n == 0x203F || n == 0x2040

end BlockCanvas.Xml
