import BlockCanvas.Sandbox.Flow
import BlockCanvas.Sandbox.Pattern

/-!
Regular expressions, in the basic notation, where brackets and counts are written with a backslash,
and in the extended one, where they are not. Of the matches that begin at a place the longest counts. Expressions look at bytes: each byte
of a text is the character of its number.
-/
namespace BlockCanvas.Sandbox
open Host

inductive Regex where
  | empty
  | one (c : Char)
  | any
  | set (negated : Bool) (members : List CharSet)
  | lineStart
  | lineEnd
  | edge (before after : Bool)
  | group (number : Nat) (inner : Regex)
  | again (number : Nat)
  | sequence (first second : Regex)
  | either (first second : Regex)
  | many (inner : Regex) (least : Nat) (most : Option Nat)
  deriving Repr

namespace Regex

def chars (data : Bytes) : List Char :=
  data.map fun b => Char.ofNat b.toNat

def bytes (cs : List Char) : Bytes :=
  cs.map fun c => UInt8.ofNat c.toNat

/-! ## Reading -/

inductive Fault where
  | unmatchedBracket
  | unmatchedGroup
  | closedGroup
  | unmatchedCount
  | badCount
  | badClass
  | badRange
  | badReference
  | trailingBackslash
  deriving DecidableEq, Repr

def Fault.text : Fault → String
  | .unmatchedBracket => "Invalid regular expression"
  | .unmatchedGroup => "Unmatched ( or \\("
  | .closedGroup => "Unmatched ) or \\)"
  | .unmatchedCount => "Unmatched \\\x7b"
  | .badCount => "Invalid content of \\\x7b\\\x7d"
  | .badClass => "Invalid character class name"
  | .badRange => "Invalid range end"
  | .badReference => "Invalid back reference"
  | .trailingBackslash => "Trailing backslash"

inductive Mark where
  | opening
  | closing
  | bar
  | star
  | plus
  | question
  | count
  | other (r : Regex)

def wordSet : List CharSet :=
  [.named "alnum", .range '_' '_']

def escaped? : Char → Option Regex
  | 'w' => some (.set false wordSet)
  | 'W' => some (.set true wordSet)
  | 's' => some (.set false [.named "space"])
  | 'S' => some (.set true [.named "space"])
  | 'b' => some (.edge true true)
  | '<' => some (.edge false true)
  | '>' => some (.edge true false)
  | 'n' => some (.one '\n')
  | 't' => some (.one '\t')
  | c => if '1' ≤ c && c ≤ '9' then some (.again (c.toNat - 48)) else none

def mark? : Char → Option Mark
  | '(' => some .opening
  | ')' => some .closing
  | '|' => some .bar
  | '+' => some .plus
  | '?' => some .question
  | '\x7b' => some .count
  | _ => none

def classes : List String :=
  ["alpha", "digit", "alnum", "upper", "lower", "blank", "space", "punct", "graph", "print", "cntrl",
    "xdigit"]

def memberFault? : CharSet → Option Fault
  | .range first last => if last < first then some .badRange else none
  | .named name => if classes.contains name then none else some .badClass

def bracket (cs : List Char) : Except Fault (Regex × List Char) :=
  let (negated, inside) : Bool × List Char := match cs with
    | '^' :: inside => (true, inside)
    | _ => (false, cs)
  match Pattern.members (inside.length + 1) true (inside.map fun c => (c, false)) with
  | some (found, rest) =>
    match found.findSome? memberFault? with
    | some fault => .error fault
    | none => .ok (.set negated found, rest.map (·.1))
  | none => .error .unmatchedBracket

/-- The next mark and what follows it. `first` tells whether a part begins here. -/
def nextMark (extended first : Bool) (cs : List Char) : Except Fault (Mark × List Char) :=
  match cs with
  | [] => .ok (.other .empty, [])
  | ['\\'] => .error .trailingBackslash
  | '\\' :: c :: rest =>
    match mark? c, escaped? c with
    | some mark, _ => .ok (if extended then .other (.one c) else mark, rest)
    | none, some r => .ok (.other r, rest)
    | none, none => .ok (.other (.one c), rest)
  | '*' :: rest => .ok (if first && !extended then .other (.one '*') else .star, rest)
  | '.' :: rest => .ok (.other .any, rest)
  | '[' :: rest => (bracket rest).map fun (r, rest) => (.other r, rest)
  | '^' :: rest => .ok (.other (if extended || first then .lineStart else .one '^'), rest)
  | '$' :: rest =>
    let last := match rest with
      | [] => true
      | '\\' :: ')' :: _ => true
      | '\\' :: '|' :: _ => true
      | _ => false
    .ok (.other (if extended || last then .lineEnd else .one '$'), rest)
  | c :: rest =>
    match mark? c with
    | some mark => .ok (if extended then mark else .other (.one c), rest)
    | none => .ok (.other (.one c), rest)

def counts (extended : Bool) (cs : List Char) : Except Fault ((Nat × Option Nat) × List Char) :=
  let low := cs.takeWhile Char.isDigit
  let rest := cs.drop low.length
  let number (ds : List Char) : Nat := ds.foldl (fun n c => 10 * n + (c.toNat - 48)) 0
  let (range, rest) : (Nat × Option Nat) × List Char := match rest with
    | ',' :: rest =>
      let high := rest.takeWhile Char.isDigit
      ((number low, if high.isEmpty then none else some (number high)), rest.drop high.length)
    | _ => ((number low, some (number low)), rest)
  let checked (rest : List Char) :=
    if range.2.any (· < range.1) then .error .badCount else .ok (range, rest)
  match extended, rest with
  | true, '\x7d' :: rest => checked rest
  | false, '\\' :: '\x7d' :: rest => checked rest
  | _, [] => .error .unmatchedCount
  | _, _ => .error .badCount

/-- Whether an opening brace begins counts; in the extended notation any other brace is plain. -/
def beginsCounts (extended : Bool) (cs : List Char) : Bool :=
  let inside := cs.dropWhile fun c => c.isDigit || c == ','
  !extended || (inside.head? == some '\x7d' && cs.head? != some '\x7d')

def repeated (extended : Bool) : Nat → Regex → List Char → Except Fault (Regex × List Char)
  | 0, r, cs => .ok (r, cs)
  | n + 1, r, cs =>
    if cs.isEmpty then .ok (r, [])
    else
      match nextMark extended false cs with
      | .ok (.star, rest) => repeated extended n (.many r 0 none) rest
      | .ok (.plus, rest) => repeated extended n (.many r 1 none) rest
      | .ok (.question, rest) => repeated extended n (.many r 0 (some 1)) rest
      | .ok (.count, rest) =>
        if beginsCounts extended rest then do
          let ((least, most), rest) ← counts extended rest
          repeated extended n (.many r least most) rest
        else return (r, cs)
      | _ => .ok (r, cs)

mutual
def expression (extended : Bool) : Nat → Nat → List Char → Except Fault (Regex × Nat × List Char)
  | 0, k, cs => .ok (.empty, k, cs)
  | n + 1, k, cs => do
    let (first, k, rest) ← branch extended n true k cs
    match if rest.isEmpty then .ok (.other .empty, []) else nextMark extended false rest with
    | .ok (.bar, rest) =>
      let (second, k, rest) ← expression extended n k rest
      return (.either first second, k, rest)
    | _ => return (first, k, rest)
def branch (extended : Bool) : Nat → Bool → Nat → List Char →
    Except Fault (Regex × Nat × List Char)
  | 0, _, k, cs => .ok (.empty, k, cs)
  | n + 1, first, k, cs => do
    if cs.isEmpty then return (.empty, k, [])
    match ← nextMark extended first cs with
    | (.bar, _) => return (.empty, k, cs)
    | (.closing, _) => return (.empty, k, cs)
    | (.opening, rest) =>
      let (inner, next, rest) ← expression extended n (k + 1) rest
      match if rest.isEmpty then .ok (.other .empty, []) else nextMark extended false rest with
      | .ok (.closing, rest) => follow extended n (.group k inner) next rest
      | _ => throw .unmatchedGroup
    | (.other r, rest) => follow extended n r k rest
    | (.count, rest) => follow extended n (.one '\x7b') k rest
    | (_, rest) => follow extended n (if extended then .empty else .one (cs.headD ' ')) k rest
def follow (extended : Bool) : Nat → Regex → Nat → List Char →
    Except Fault (Regex × Nat × List Char)
  | 0, r, k, cs => .ok (r, k, cs)
  | n + 1, r, k, cs => do
    let anchor := r matches .lineStart
    let (r, rest) ← if anchor && !extended then pure (r, cs) else repeated extended cs.length r cs
    let (more, k, rest) ← branch extended n (anchor && !extended) k rest
    return (.sequence r more, k, rest)
end

def groupCount : Regex → Nat
  | .group _ inner => inner.groupCount + 1
  | .many inner _ _ => inner.groupCount
  | .sequence first second => first.groupCount + second.groupCount
  | .either first second => first.groupCount + second.groupCount
  | _ => 0

def references : Regex → List Nat
  | .again n => [n]
  | .group _ inner => inner.references
  | .many inner _ _ => inner.references
  | .sequence first second => first.references ++ second.references
  | .either first second => first.references ++ second.references
  | _ => []

def read (extended : Bool) (cs : List Char) : Except Fault Regex := do
  let (r, _, rest) ← expression extended (4 * cs.length + 4) 1 cs
  if r.references.any (r.groupCount < ·) then throw .badReference
  if rest.isEmpty then return r
  else if extended then return .sequence r (.one ')')
  else throw .closedGroup

def ofText (text : List Char) : Regex :=
  text.foldr (fun c r => .sequence (.one c) r) .empty

/-! ## Matching -/

structure Place where
  before : Option Char := none
  rest : List Char
  groups : List (Nat × List Char) := []

def isWordChar (c : Char) : Bool :=
  c.isAlphanum || c == '_'

def Place.atEdge (p : Place) (before after : Bool) : Bool :=
  let left := p.before.any isWordChar
  let right := (p.rest.head?).any isWordChar
  left != right && ((before && left) || (after && right))

def Place.advance (p : Place) (n : Nat) : Place :=
  { p with
    before := if n == 0 then p.before else (p.rest.take n).getLast?
    rest := p.rest.drop n }

def distinct : List Place → List Place
  | [] => []
  | p :: places =>
    p :: (distinct places).filter fun q => q.rest.length != p.rest.length

def sameChar (folds : Bool) (a b : Char) : Bool :=
  a == b || (folds && a.toLower == b.toLower)

def going (step : Place → List Place) (least : Nat) (most : Option Nat) : Nat → Nat → Place →
    List Place
  | 0, done, p => if least ≤ done then [p] else []
  | n + 1, done, p =>
    let further := if most.any (· ≤ done) then []
      else (step p).filter fun q => q.rest.length < p.rest.length || done < least
    distinct (further.flatMap (going step least most n (done + 1)) ++ if least ≤ done then [p] else [])

def reached (folds : Bool) : Regex → Place → List Place
  | .empty, p => [p]
  | .one c, p => if (p.rest.head?).any (sameChar folds c) then [p.advance 1] else []
  | .any, p => if p.rest.isEmpty then [] else [p.advance 1]
  | .set negated members, p =>
    let admits (c : Char) : Bool :=
      members.any (·.admits c) ||
        (folds && members.any fun m => m.admits c.toLower || m.admits c.toUpper)
    if (p.rest.head?).any fun c => admits c != negated then [p.advance 1] else []
  | .lineStart, p => if p.before.isNone || p.before == some '\n' then [p] else []
  | .lineEnd, p => if p.rest.isEmpty then [p] else []
  | .edge before after, p => if p.atEdge before after then [p] else []
  | .group n inner, p => (reached folds inner p).map fun q =>
    { q with groups := (n, p.rest.take (p.rest.length - q.rest.length)) :: q.groups }
  | .again n, p =>
    let text := (p.groups.lookup n).getD []
    if text.isPrefixOf p.rest then [p.advance text.length] else []
  | .sequence first second, p => distinct ((reached folds first p).flatMap (reached folds second))
  | .either first second, p => distinct (reached folds first p ++ reached folds second p)
  | .many inner least most, p =>
    going (reached folds inner) least most (p.rest.length + least + 1) 0 p

structure Found where
  skipped : List Char
  text : List Char
  groups : List (Nat × List Char)
  after : Place

def find? (r : Regex) (folds : Bool) : Nat → List Char → Place → Option Found
  | 0, _, _ => none
  | n + 1, skipped, p =>
    let longest := (reached folds r p).foldl
      (fun (best : Option Place) q =>
        match best with
        | some b => if q.rest.length < b.rest.length then some q else best
        | none => some q) none
    match longest with
    | some q =>
      some
        { skipped := skipped.reverse
          text := p.rest.take (p.rest.length - q.rest.length)
          groups := q.groups
          after := { q with groups := [] } }
    | none =>
      match p.rest with
      | [] => none
      | c :: _ => find? r folds n (c :: skipped) (p.advance 1)

def search (r : Regex) (folds : Bool) (p : Place) : Option Found :=
  r.find? folds (p.rest.length + 1) [] p

end Regex
end BlockCanvas.Sandbox
