/-!
Patterns of names: a question mark stands for any character, a star for any text, brackets for one
character of a set. A quoted character stands for itself.
-/
namespace BlockCanvas.Sandbox

inductive CharSet where
  | range (first last : Char)
  | named (name : String)
  deriving DecidableEq, Repr

namespace CharSet

def inClass (name : String) (c : Char) : Bool :=
  let blank := c == ' ' || c == '\t'
  let graph := '!' ≤ c && c ≤ '~'
  match name with
  | "alpha" => c.isAlpha
  | "digit" => c.isDigit
  | "alnum" => c.isAlphanum
  | "upper" => c.isUpper
  | "lower" => c.isLower
  | "blank" => blank
  | "space" => blank || ('\n' ≤ c && c ≤ '\r')
  | "punct" => graph && !c.isAlphanum
  | "graph" => graph
  | "print" => graph || c == ' '
  | "cntrl" => c < ' ' || c == '\x7f'
  | "xdigit" => c.isDigit || ('a' ≤ c && c ≤ 'f') || ('A' ≤ c && c ≤ 'F')
  | _ => false

def admits (c : Char) : CharSet → Bool
  | .range first last => first ≤ c && c ≤ last
  | .named name => inClass name c

end CharSet

inductive PatternPart where
  | one (c : Char)
  | any
  | many
  | set (negated : Bool) (members : List CharSet)
  deriving DecidableEq, Repr

abbrev Pattern := List PatternPart

namespace Pattern

def className? : List (Char × Bool) → Option (String × List (Char × Bool))
  | [] => none
  | (':', _) :: (']', _) :: rest => some ("", rest)
  | (c, _) :: rest => (className? rest).map fun found => (String.singleton c ++ found.1, found.2)

/-- The members of a set in brackets up to the closing one, which is a member if it comes first. -/
def members : Nat → Bool → List (Char × Bool) → Option (List CharSet × List (Char × Bool))
  | 0, _, _ => none
  | _ + 1, _, [] => none
  | n + 1, first, (c, quoted) :: rest =>
    let add (member : CharSet) (rest : List (Char × Bool)) :=
      (members n false rest).map fun found => (member :: found.1, found.2)
    if c == ']' && !quoted && !first then some ([], rest)
    else
      match c, rest with
      | '[', (':', _) :: after =>
        match className? after with
        | some (name, after) => add (.named name) after
        | none => add (.range c c) rest
      | _, ('-', false) :: (last, _) :: after =>
        if last == ']' then add (.range c c) rest else add (.range c last) after
      | _, _ => add (.range c c) rest

def ofChars : Nat → List (Char × Bool) → Pattern
  | 0, _ => []
  | _ + 1, [] => []
  | n + 1, (c, true) :: rest => .one c :: ofChars n rest
  | n + 1, ('*', false) :: rest => .many :: ofChars n rest
  | n + 1, ('?', false) :: rest => .any :: ofChars n rest
  | n + 1, ('[', false) :: rest =>
    let (negated, inside) : Bool × List (Char × Bool) := match rest with
      | ('!', false) :: inside => (true, inside)
      | _ => (false, rest)
    match members n true inside with
    | some (found, after) => .set negated found :: ofChars n after
    | none => .one '[' :: ofChars n rest
  | n + 1, (c, false) :: rest => .one c :: ofChars n rest

def read (cs : List (Char × Bool)) : Pattern :=
  ofChars (cs.length + 1) cs

def ends : List Char → List (List Char)
  | [] => [[]]
  | c :: cs => (c :: cs) :: ends cs

def fits : Pattern → List Char → Bool
  | [], cs => cs.isEmpty
  | .many :: p, cs => (ends cs).any (fits p)
  | .one c :: p, d :: cs => c == d && fits p cs
  | .any :: p, _ :: cs => fits p cs
  | .set negated found :: p, d :: cs => (found.any (·.admits d)) != negated && fits p cs
  | _ :: _, [] => false

def withoutStart (p : Pattern) (longest : Bool) (cs : List Char) : List Char :=
  let cuts := List.range (cs.length + 1)
  let cuts := if longest then cuts.reverse else cuts
  match cuts.find? fun n => fits p (cs.take n) with
  | some n => cs.drop n
  | none => cs

def withoutEnd (p : Pattern) (longest : Bool) (cs : List Char) : List Char :=
  let cuts := List.range (cs.length + 1)
  let cuts := if longest then cuts else cuts.reverse
  match cuts.find? fun n => fits p (cs.drop n) with
  | some n => cs.take n
  | none => cs

def isOpen (p : Pattern) : Bool :=
  p.any fun
    | .one _ => false
    | _ => true

end Pattern
end BlockCanvas.Sandbox
