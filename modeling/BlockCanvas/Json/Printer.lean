import BlockCanvas.Json.Basic

/-!
The two written forms of JSON values: compact without any space, and indented by two.
-/
namespace BlockCanvas.Json

def hexDigit (n : Nat) : Char :=
  (Nat.toDigits 16 (n % 16)).headD '0'

def escapeChar (c : Char) : List Char :=
  if c == '"' then ['\\', '"']
  else if c == '\\' then ['\\', '\\']
  else if c == '\x08' then ['\\', 'b']
  else if c == '\t' then ['\\', 't']
  else if c == '\n' then ['\\', 'n']
  else if c == '\x0c' then ['\\', 'f']
  else if c == '\r' then ['\\', 'r']
  else if c.toNat < 0x20 then
    ['\\', 'u', '0', '0', hexDigit (c.toNat / 16), hexDigit c.toNat]
  else [c]

def quoted (s : String) : String :=
  String.ofList ('"' :: s.toList.flatMap escapeChar ++ ['"'])

def scalar : Json → String
  | .null => "null"
  | .bool true => "true"
  | .bool false => "false"
  | .int n => toString n
  | .real x => ((Binary.ofFloat x).json?).getD "null"
  | .string s => quoted s
  | _ => ""

mutual
def compact : Json → String
  | .array [] => "[]"
  | .array (item :: items) => "[" ++ compact item ++ compactItems items
  | .object [] => "\x7b\x7d"
  | .object ((key, value) :: members) =>
    "\x7b" ++ quoted key ++ ":" ++ compact value ++ compactMembers members
  | value => scalar value
def compactItems : List Json → String
  | [] => "]"
  | item :: items => "," ++ compact item ++ compactItems items
def compactMembers : List (String × Json) → String
  | [] => "\x7d"
  | (key, value) :: members => "," ++ quoted key ++ ":" ++ compact value ++ compactMembers members
end

def newline (level : Nat) : String :=
  String.ofList ('\n' :: List.replicate (2 * level) ' ')

mutual
def prettyAt (level : Nat) : Json → String
  | .array [] => "[]"
  | .array (item :: items) =>
    "[" ++ newline (level + 1) ++ prettyAt (level + 1) item ++ prettyItems level items
  | .object [] => "\x7b\x7d"
  | .object ((key, value) :: members) =>
    "\x7b" ++ newline (level + 1) ++ quoted key ++ ": " ++ prettyAt (level + 1) value ++
      prettyMembers level members
  | value => scalar value
def prettyItems (level : Nat) : List Json → String
  | [] => newline level ++ "]"
  | item :: items =>
    "," ++ newline (level + 1) ++ prettyAt (level + 1) item ++ prettyItems level items
def prettyMembers (level : Nat) : List (String × Json) → String
  | [] => newline level ++ "\x7d"
  | (key, value) :: members =>
    "," ++ newline (level + 1) ++ quoted key ++ ": " ++ prettyAt (level + 1) value ++
      prettyMembers level members
end

def pretty (value : Json) : String :=
  prettyAt 0 value

end BlockCanvas.Json
