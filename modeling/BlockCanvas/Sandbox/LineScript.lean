import BlockCanvas.Decimal.Text
import BlockCanvas.Sandbox.Regex

/-!
Scripts that edit lines: steps, each with the lines that it is for.
-/
namespace BlockCanvas.Sandbox.LineScript

inductive Address where
  | line (n : Nat)
  | last
  | fits (r : Regex) (folds : Bool)
  | every (first step : Nat)
  | further (n : Nat)

structure Range where
  start : Option Address := none
  finish : Option Address := none
  negated : Bool := false

inductive Insert where
  | char (c : Char)
  | group (n : Nat)
  | casing (letter : Char)
  deriving Repr

inductive Edit where
  | substitute (r : Regex) (folds : Bool) (parts : List Insert) (all : Bool) (nth : Nat) (prints : Bool)
  | print
  | printFirst
  | delete
  | deleteFirst
  | quit (silent : Bool) (status : Nat)
  | next
  | join
  | number
  | swap (pairs : List (Char × Char))
  | after (text : String)
  | before (text : String)
  | change (text : String)
  | hold (adds : Bool)
  | get (adds : Bool)
  | exchange
  | label (name : String)
  | jump (name : String) (condition : Option Bool)

def Edit.isLabel (name : String) : Edit → Bool
  | .label found => found == name
  | _ => false

/-- A step; a step inside braces is for the lines that those around it are for too. -/
structure Step where
  ranges : List (Nat × Range)
  edit : Edit

/-! ## Reading scripts -/

structure ScriptFault where
  left : Option Nat
  text : String

def wrong {α : Type} (cs : List Char) (text : String) : Except ScriptFault (α × List Char) :=
  .error ⟨some cs.length, text⟩

/-- The text up to a mark, which a backslash before it protects; inside brackets it is no mark. -/
def upTo (mark : Char) (keep : Bool) : Bool → List Char → Option (List Char × List Char)
  | _, [] => none
  | _, ['\\'] => none
  | inside, '\\' :: c :: cs =>
    (upTo mark keep inside cs).map fun (text, rest) =>
      if c == mark && !inside then ((if keep then ['\\', c] else [c]) ++ text, rest)
      else ('\\' :: c :: text, rest)
  | inside, c :: cs =>
    if c == mark && !inside then some ([], cs)
    else
      let inside := if c == '[' then true else if c == ']' then false else inside
      (upTo mark keep inside cs).map fun (text, rest) => (c :: text, rest)

def regexOf (extended : Bool) (cs : List Char) (place : List Char) : Except ScriptFault Regex :=
  match Regex.read extended cs with
  | .ok r => .ok r
  | .error fault => .error ⟨some place.length, fault.text⟩

def address (extended : Bool) (cs : List Char) : Except ScriptFault (Option Address × List Char) := do
  match cs with
  | '$' :: rest => return (some .last, rest)
  | '/' :: rest =>
    match upTo '/' false false rest with
    | none => wrong [] "unterminated address regex"
    | some (text, rest) =>
      let r ← regexOf extended text rest
      match rest with
      | 'I' :: rest => return (some (.fits r true), rest)
      | _ => return (some (.fits r false), rest)
  | c :: _ =>
    if c.isDigit then
      let n := Decimal.natOf (cs.takeWhile Char.isDigit)
      match cs.dropWhile Char.isDigit with
      | '~' :: rest =>
        return (some (.every n (Decimal.natOf (rest.takeWhile Char.isDigit))),
          rest.dropWhile Char.isDigit)
      | rest => return (some (.line n), rest)
    else return (none, cs)
  | [] => return (none, [])

def skipGaps (cs : List Char) : List Char :=
  cs.dropWhile fun c => c == ' ' || c == '\t'

def range (extended : Bool) (cs : List Char) : Except ScriptFault (Range × List Char) := do
  let (start, rest) ← address extended cs
  let rest := skipGaps rest
  let (finish, rest) ← match start, rest with
    | some _, ',' :: '+' :: rest =>
      pure (some (Address.further (Decimal.natOf (rest.takeWhile Char.isDigit))),
        rest.dropWhile Char.isDigit)
    | some _, ',' :: rest => do
      match ← address extended (skipGaps rest) with
      | (none, left) => wrong (left.drop 1) "unexpected \x60,'"
      | found => pure found
    | _, rest => pure (none, rest)
  match skipGaps rest with
  | '!' :: rest => return ({ start, finish, negated := true }, skipGaps rest)
  | rest => return ({ start, finish }, rest)

def inserts : List Char → List Insert
  | [] => []
  | '&' :: cs => .group 0 :: inserts cs
  | '\\' :: 'n' :: cs => .char '\n' :: inserts cs
  | '\\' :: 't' :: cs => .char '\t' :: inserts cs
  | '\\' :: c :: cs =>
    (if c.isDigit then .group (c.toNat - 48)
      else if ['U', 'L', 'u', 'l', 'E'].contains c then .casing c
      else .char c) :: inserts cs
  | c :: cs => .char c :: inserts cs

def Insert.beyond? (groups : Nat) : Insert → Option Nat
  | .group n => if groups < n then some n else none
  | _ => none

structure Flags where
  all : Bool := false
  nth : Nat := 1
  prints : Bool := false
  folds : Bool := false

def flags : Nat → Flags → List Char → Flags × List Char
  | 0, f, cs => (f, cs)
  | n + 1, f, cs =>
    match cs with
    | 'g' :: rest => flags n { f with all := true } rest
    | 'p' :: rest => flags n { f with prints := true } rest
    | 'i' :: rest => flags n { f with folds := true } rest
    | 'I' :: rest => flags n { f with folds := true } rest
    | c :: _ =>
      if c.isDigit then
        flags n { f with nth := Decimal.natOf (cs.takeWhile Char.isDigit) } (cs.dropWhile Char.isDigit)
      else (f, cs)
    | [] => (f, [])

def twoTexts? : List Char → Option ((List Char × List Char) × List Char)
  | [] => none
  | mark :: cs => do
    let (first, rest) ← upTo mark false false cs
    let (second, rest) ← upTo mark false false rest
    return ((first, second), rest)

def endsCommand (c : Char) : Bool :=
  c == ';' || c == '\n' || c == '\x7d' || c == '#'

def substitution (extended : Bool) (cs : List Char) : Except ScriptFault (Edit × List Char) := do
  match twoTexts? cs with
  | none => wrong [] "unterminated \x60s' command"
  | some ((pattern, replacement), rest) =>
    let (f, left) := flags (rest.length + 1) {} rest
    let r ← regexOf extended pattern left
    let parts := inserts replacement
    if let some n := parts.findSome? (Insert.beyond? r.groupCount) then
      let after := if left.head? == some ';' || left.head? == some '\n' then left.tail else left
      wrong after ("invalid reference \\" ++ toString n ++ " on \x60s' command's RHS")
    else if left.head?.all fun c => c == ' ' || endsCommand c then
      return (.substitute r f.folds parts f.all f.nth f.prints, left)
    else wrong left.tail "unknown option to \x60s'"

def unescaped : List Char → List Char
  | '\\' :: 'n' :: cs => '\n' :: unescaped cs
  | '\\' :: 't' :: cs => '\t' :: unescaped cs
  | '\\' :: c :: cs => c :: unescaped cs
  | c :: cs => c :: unescaped cs
  | [] => []

def missingText : String :=
  "expected \\ after \x60a', \x60c' or \x60i'"

def textArgument (cs : List Char) : String × List Char :=
  let cs := skipGaps cs
  let cs := match cs with
    | '\\' :: '\n' :: rest => rest
    | '\\' :: rest => rest
    | _ => cs
  go cs
where
  go : List Char → String × List Char
    | [] => ("\n", [])
    | '\\' :: c :: cs =>
      let (text, rest) := go cs
      (String.singleton c ++ text, rest)
    | c :: cs =>
      if c == '\n' then ("\n", cs)
      else
        let (text, rest) := go cs
        (String.singleton c ++ text, rest)

def labelName (cs : List Char) : String × List Char :=
  let isPart (c : Char) : Bool := !(c == ' ' || c == '\t' || c == '\n' || c == ';' || c == '\x7d')
  let cs := skipGaps cs
  (String.ofList (cs.takeWhile isPart), cs.dropWhile isPart)

def edit (extended : Bool) (c : Char) (cs : List Char) :
    Except ScriptFault (Edit × List Char) := do
  let code := Decimal.natOf ((skipGaps cs).takeWhile Char.isDigit)
  let afterCode := (skipGaps cs).dropWhile Char.isDigit
  match c with
  | 's' => substitution extended cs
  | 'p' => return (.print, cs)
  | 'P' => return (.printFirst, cs)
  | 'd' => return (.delete, cs)
  | 'D' => return (.deleteFirst, cs)
  | 'q' => return (.quit false code, afterCode)
  | 'Q' => return (.quit true code, afterCode)
  | 'n' => return (.next, cs)
  | 'N' => return (.join, cs)
  | '=' => return (.number, cs)
  | 'h' => return (.hold false, cs)
  | 'H' => return (.hold true, cs)
  | 'g' => return (.get false, cs)
  | 'G' => return (.get true, cs)
  | 'x' => return (.exchange, cs)
  | ':' =>
    let (name, rest) := labelName cs
    if name.isEmpty then wrong cs "\":\" lacks a label" else return (.label name, rest)
  | 'b' => return ((labelName cs).map (Edit.jump · none) id)
  | 't' => return ((labelName cs).map (Edit.jump · (some true)) id)
  | 'T' => return ((labelName cs).map (Edit.jump · (some false)) id)
  | 'a' => if cs.isEmpty then wrong [] missingText else return ((textArgument cs).map Edit.after id)
  | 'i' => if cs.isEmpty then wrong [] missingText else return ((textArgument cs).map Edit.before id)
  | 'c' => if cs.isEmpty then wrong [] missingText else return ((textArgument cs).map Edit.change id)
  | 'y' =>
    match twoTexts? cs with
    | none => wrong [] "unterminated \x60y' command"
    | some ((source, target), rest) =>
      let (source, target) := (unescaped source, unescaped target)
      if source.length == target.length then return (.swap (source.zip target), rest)
      else wrong rest "strings for \x60y' command are different lengths"
  | _ => wrong cs ("unknown command: \x60" ++ String.singleton c ++ "'")

def steps (extended : Bool) : Nat → Nat → List (List (Nat × Range)) → List Char →
    Except ScriptFault (List Step)
  | 0, _, _, _ => .ok []
  | n + 1, k, around, cs =>
    match cs.dropWhile fun c => c == ' ' || c == '\t' || c == '\n' || c == ';' with
    | [] => if around.isEmpty then .ok [] else .error ⟨none, "unmatched \x60\x7b'"⟩
    | '#' :: rest => steps extended n k around (rest.dropWhile (· != '\n'))
    | '\x7d' :: rest =>
      match around with
      | _ :: outer => steps extended n k outer rest
      | [] => .error ⟨some rest.length, "unexpected \x60\x7d'"⟩
    | cs => do
      let (r, rest) ← range extended cs
      let here := (k, r) :: around.headD []
      match rest with
      | [] => throw ⟨some 0, "missing command"⟩
      | '\x7b' :: rest => steps extended n (k + 1) (here :: around) rest
      | c :: rest =>
        let (e, left) ← edit extended c rest
        let textual := c == 'a' || c == 'i' || c == 'c'
        let left := skipGaps left
        if textual || left.head?.all endsCommand then
          return { ranges := here, edit := e } :: (← steps extended n (k + 1) around left)
        else throw ⟨some (left.length - 1), "extra characters after command"⟩

end BlockCanvas.Sandbox.LineScript
