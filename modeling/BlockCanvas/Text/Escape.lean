import BlockCanvas.Text.Hidden

/-!
Written forms of characters inside quotes. A form has its own escapes for some characters and one by
number for all others that may not stand as they are.
-/
namespace BlockCanvas.Text

def isControl (c : Char) : Bool :=
  c.toNat < 0x20 || (0x7F ≤ c.toNat && c.toNat ≤ 0x9F)

def hexDigits (n : Nat) : List Char :=
  Nat.toDigits 16 n

def hexByte (n : Nat) : List Char :=
  if n < 16 then '0' :: hexDigits n else hexDigits n

/-- Text as a reader of diagnostics sees it: in double quotes, with hidden characters by number. -/
def shownChar (c : Char) : List Char :=
  if c == '\x00' then ['\\', '0']
  else if c == '\t' then ['\\', 't']
  else if c == '\r' then ['\\', 'r']
  else if c == '\n' then ['\\', 'n']
  else if c == '"' || c == '\\' then ['\\', c]
  else if isHidden c then '\\' :: 'u' :: '\x7b' :: hexDigits c.toNat ++ ['\x7d']
  else [c]

def shown (s : String) : String :=
  String.ofList ('"' :: s.toList.flatMap shownChar ++ ['"'])

end BlockCanvas.Text
