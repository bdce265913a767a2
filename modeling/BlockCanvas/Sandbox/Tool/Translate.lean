import BlockCanvas.Sandbox.Pattern
import BlockCanvas.Sandbox.Tool.Basic

/-!
A program that replaces, drops and squeezes bytes by sets of them.
-/
namespace BlockCanvas.Sandbox.Tool
open Host

inductive SetPart where
  | single (b : UInt8)
  | range (low high : UInt8)
  | named (name : String)
  | filling (b : UInt8) (times : Nat)
  deriving DecidableEq, Repr

def byteRange (low high : UInt8) : Bytes :=
  (List.range (high.toNat + 1 - low.toNat)).map fun i => UInt8.ofNat (low.toNat + i)

def classNames : List String :=
  ["alnum", "alpha", "blank", "cntrl", "digit", "graph", "lower", "print", "punct", "space", "upper",
    "xdigit"]

def classBytes (name : String) : Bytes :=
  (byteRange 0 127).filter fun b => CharSet.inClass name (Char.ofNat b.toNat)

def setByte : List Char → Option (UInt8 × List Char)
  | [] => none
  | '\\' :: c :: cs =>
    match ({} : Escapes).read (c :: cs) with
    | (some [b], rest) => some (b, rest)
    | _ => some ((charBytes c).headD 0, cs)
  | c :: cs =>
    match charBytes c with
    | [b] => some (b, cs)
    | _ => none

def wide : List Char → List SetPart
  | [] => []
  | c :: _ => (charBytes c).map .single

def bracketed (cs : List Char) : Option (SetPart × List Char) :=
  match cs with
  | ':' :: rest =>
    let name := rest.takeWhile (· != ':')
    match rest.drop name.length with
    | ':' :: ']' :: rest => some (.named (String.ofList name), rest)
    | _ => none
  | '=' :: c :: '=' :: ']' :: rest => (setByte [c]).map fun found => (.single found.1, rest)
  | _ =>
    match setByte cs with
    | some (b, '*' :: rest) =>
      let ds := rest.takeWhile Char.isDigit
      match rest.drop ds.length with
      | ']' :: rest => some (.filling b (Decimal.natOf ds), rest)
      | _ => none
    | _ => none

def setParts : Nat → List Char → List SetPart
  | 0, _ => []
  | _ + 1, [] => []
  | n + 1, c :: cs =>
    match c, bracketed cs with
    | '[', some (part, rest) => part :: setParts n rest
    | _, _ =>
      match setByte (c :: cs) with
      | none => wide (c :: cs) ++ setParts n cs
      | some (low, '-' :: rest) =>
        match setByte rest with
        | some (high, rest) => .range low high :: setParts n rest
        | none => .single low :: setParts n ('-' :: rest)
      | some (low, rest) => .single low :: setParts n rest

def setOf (text : String) : List SetPart :=
  setParts (text.length + 1) text.toList

def expanded (size : Nat) (set : List SetPart) : Bytes :=
  let rest := (set.map fun
    | .single _ => 1
    | .range low high => high.toNat + 1 - low.toNat
    | .named name => (classBytes name).length
    | .filling _ times => times).foldl (· + ·) 0
  set.flatMap fun
    | .single b => [b]
    | .range low high => byteRange low high
    | .named name => classBytes name
    | .filling b 0 => List.replicate (size - rest) b
    | .filling b times => List.replicate times b

def setFault? (text : String) (set : List SetPart) : Option String :=
  set.findSome? fun
    | .range low high =>
      if high < low then
        some ("range-endpoints of " ++ quoted text ++ " are in reverse collating sequence order")
      else none
    | .named name =>
      if classNames.contains name then none
      else some ("invalid character class " ++ quoted name)
    | _ => none

/-- The last of the pairs that begin with a byte decides; the shorter set is filled up with its last
byte. -/
def substitute (source target : Bytes) (b : UInt8) : UInt8 :=
  let padding := List.replicate (source.length - target.length) (target.getLast?.getD b)
  ((source.zip (target ++ padding)).reverse.lookup b).getD b

def squeeze (set : Bytes) : Bytes → Bytes
  | a :: b :: data =>
    if a == b && set.contains a then squeeze set (b :: data) else a :: squeeze set (b :: data)
  | data => data

def tr : Tool := fun s args =>
  withOptions
    { plain := "cCdst", strict := true
      long := [("complement", 'c'), ("delete", 'd'), ("squeeze-repeats", 's'),
        ("truncate-set1", 't')] } 1 s args fun found operands =>
    let deletes := has found 'd'
    let squeezes := has found 's'
    let wrong (first second : String) : Work :=
      (misusedWith s first second)
    match operands with
    | [] => misused s "missing operand" 1
    | [first] =>
      if deletes && squeezes then
        wrong ("missing operand after " ++ quoted first)
          "Two strings must be given when both deleting and squeezing repeats."
      else if !deletes && !squeezes then
        wrong ("missing operand after " ++ quoted first)
          "Two strings must be given when translating."
      else run s found first none
    | [first, second] =>
      if deletes && !squeezes then
        wrong ("extra operand " ++ quoted second)
          "Only one string may be given when deleting without squeezing repeats."
      else run s found first (some second)
    | _ :: _ :: extra :: _ => misused s ("extra operand " ++ quoted extra) 1
where
  misusedWith (s : Setting) (text hint : String) : Work :=
    ((s.idle.complain s.name text 1).printError (hint ++ "\n")).printError
      ("Try '" ++ s.name ++ " --help' for more information.\n")
  run (s : Setting) (found : Options) (first : String) (second : Option String) : Work :=
    let deletes := has found 'd'
    let squeezes := has found 's'
    let one := setOf first
    let two := second.map setOf
    let fault := (setFault? first one).or (second.bind fun text => setFault? text (setOf text))
    match fault with
    | some text => s.idle.complain s.name text 1
    | none =>
      if !deletes && two == some [] then
        s.idle.complain s.name "when not truncating set1, string2 must be non-empty" 1
      else
        let base := expanded 0 one
        let source := if has found 'c' || has found 'C' then
          (byteRange 0 255).filter fun b => !base.contains b else base
        let target := two.map (expanded source.length)
        let source := if has found 't' then source.take (target.getD []).length else source
        let last := target.getD source
        let change (data : Bytes) : Bytes :=
          let data := if deletes then data.filter fun b => !source.contains b
            else match target with
              | some target => data.map (substitute source target)
              | none => data
          if squeezes then squeeze last data else data
        ({ s.idle with input := {} }).print (s.input.map change)

end BlockCanvas.Sandbox.Tool
