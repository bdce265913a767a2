import BlockCanvas.Sandbox.Tool.Basic

/-!
Programs that pass on what they read, all of it or a part: whole files, their first and last lines,
lines and characters in reverse, lines with numbers.
-/
namespace BlockCanvas.Sandbox.Tool
open Host

/-! ## Whole files -/

def catKnown : Known :=
  { plain := "AbeEnstTuv"
    long := [("show-nonprinting", 'v'), ("number-nonblank", 'b'), ("show-ends", 'E'), ("number", 'n'),
      ("squeeze-blank", 's'), ("show-tabs", 'T'), ("show-all", 'A')] }

def caret (b : UInt8) : Bytes :=
  let low (b : UInt8) : Bytes :=
    if b < 32 then [94, b + 64] else if b == 127 then [94, 63] else [b]
  if b < 128 then low b else [77, 45] ++ low (b - 128)

structure Showing where
  controls : Bool
  tabs : Bool
  ends : Bool

def Showing.line (s : Showing) (line : Bytes) : Bytes :=
  let shown := (withoutFeed line).flatMap fun b =>
    if b == 9 then (if s.tabs then [94, 73] else [b])
    else if s.controls then caret b
    else [b]
  let shown := if s.ends && !s.controls && hasFeed line && shown.getLast? == some 13
    then shown.dropLast ++ [94, 77] else shown
  shown ++ (if hasFeed line then (if s.ends then [36, 10] else [10]) else [])

def squeezed : List Bytes → List Bytes
  | a :: b :: lines =>
    if a == [10] && b == [10] then squeezed (b :: lines) else a :: squeezed (b :: lines)
  | lines => lines

def numbers (all : Bool) : Nat → List Bytes → List Bytes
  | _, [] => []
  | n, line :: lines =>
    if all || line != [10] then Text.utf8 (rightAligned 6 n ++ "\t") :: numbers all (n + 1) lines
    else [] :: numbers all n lines

def catLetters (found : Options) : List Char :=
  (found.map (·.1)).flatMap fun
    | 'A' => ['v', 'E', 'T']
    | 'e' => ['v', 'E']
    | 't' => ['v', 'T']
    | c => [c]

def cat : Tool := fun s args =>
  withOptions catKnown 1 s args fun found operands =>
    let letters := catLetters found
    let has (c : Char) : Bool := letters.contains c
    let w := eachInput s plainly operands fun w _ flow => w.print flow
    let style : Showing := ⟨has 'v', has 'T', has 'E'⟩
    if letters.all (· == 'u') then w
    else w.mapOut (·.whole fun data =>
      let lines := if has 's' then squeezed (linesOf data) else linesOf data
      let labels := if has 'b' || has 'n' then numbers (!has 'b') 1 lines else lines.map fun _ => []
      ((labels.zip lines).map fun (label, line) => label ++ style.line line).flatten)

def tac : Tool := fun s args =>
  withOptions { plain := "br", valued := "s" } 1 s args fun _ operands =>
    let complaint (name : String) (t : Trouble) : String :=
      if t == .isDirectory then name ++ ": read error: Invalid argument"
      else "failed to open " ++ quoted name ++ " for reading: " ++ t.reason
    eachInput s complaint operands fun w _ flow =>
      w.print (flow.whole fun data => (linesOf data).reverse.flatten)

def rev : Tool := fun s args =>
  withOptions {} 1 s args fun _ operands =>
    let complaint (name : String) (t : Trouble) : String :=
      "cannot open " ++ name ++ ": " ++ t.reason
    eachInput s complaint operands fun w _ flow =>
      w.print (flow.whole fun data => ((linesOf data).map fun line =>
        (withoutFeed line).reverse ++ (if hasFeed line then [10] else [])).flatten)

def tee : Tool := fun s args =>
  withOptions { plain := "aip", long := [("append", 'a')] } 1 s args fun found operands =>
    let data := s.input.data
    let w := ({ s.idle with input := {} }).print s.input
    operands.foldl (fun w name =>
      match w.files.write s.directory name data (has found 'a') with
      | .ok files => { w with files }
      | .error t => w.complain s.name (plainly name t) 1) w

/-! ## Parts of files -/

inductive Share where
  | first (n : Nat)
  | allButLast (n : Nat)
  | last (n : Nat)
  | startingAt (n : Nat)
  deriving DecidableEq, Repr

def headShare? (text : String) : Option Share :=
  match text.toList with
  | '-' :: cs => (sized? (String.ofList cs)).map .allButLast
  | '+' :: cs => (sized? (String.ofList cs)).map .first
  | _ => (sized? text).map .first

def tailShare? (text : String) : Option Share :=
  match text.toList with
  | '+' :: cs => (sized? (String.ofList cs)).map .startingAt
  | '-' :: cs => (sized? (String.ofList cs)).map .last
  | _ => (sized? text).map .last

def Share.of {α : Type} : Share → List α → List α
  | .first n, l => l.take n
  | .allButLast n, l => l.take (l.length - n)
  | .last n, l => l.drop (l.length - n)
  | .startingAt n, l => l.drop (n - 1)

def taken (inLines : Bool) (share : Share) (flow : Flow) : Flow × Flow :=
  match share, inLines with
  | .first n, true => flow.cutLines n
  | .first n, false => flow.cut n
  | share, true => (flow.whole fun data => (share.of (linesOf data)).flatten, {})
  | share, false => (flow.whole share.of, {})

def spelledOut : List String → List String
  | [] => []
  | arg :: args =>
    match arg.toList with
    | '-' :: c :: cs =>
      if (c :: cs).all Char.isDigit then "-n" :: String.ofList (c :: cs) :: args else arg :: args
    | _ => arg :: args

def title (first : Bool) (name : String) : String :=
  (if first then "" else "\n") ++ "==> " ++ (if name == "-" then "standard input" else name) ++
    " <==\n"

def parts (s : Setting) (share? : String → Option Share) (standard : Share) (found : Options)
    (operands : List String) : Work :=
  let choice := last? found ['n', 'c']
  let inLines := choice.all (·.1 == 'n')
  match (choice.map (·.2)).elim (some standard) share? with
  | none =>
    s.idle.complain s.name ("invalid number of " ++ (if inLines then "lines" else "bytes") ++ ": " ++
      quoted (((choice.map (·.2)).getD "").dropWhile fun c => c == '-' || c == '+').toString) 1
  | some share =>
    let titled := match last? found ['q', 'v'] with
      | some ('q', _) => false
      | some _ => true
      | none => operands.length > 1
    let headed (w : Work) (name : String) : Work :=
      if titled then w.printText (title (!(w.prints.any (·.1 == .out))) name) else w
    (if operands.isEmpty then ["-"] else operands).foldl
      (fun w name =>
        match openOperand w s name with
        | .ok (flow, opened) =>
          let (part, left) := taken inLines share flow
          let w := (headed opened name).print part
          if name == "-" then { w with input := left } else w
        | .error t =>
          let w := if t == .isDirectory then headed w name else w
          w.complain s.name (cannotOpen name t) 1)
      s.idle

def partsKnown : Known :=
  { plain := "qvfFz", valued := "nc"
    long := [("lines", 'n'), ("bytes", 'c'), ("quiet", 'q'), ("silent", 'q'), ("verbose", 'v')] }

def head : Tool := fun s args =>
  withOptions { partsKnown with plain := "qvz" } 1 s (spelledOut args) fun found operands =>
    parts s headShare? (.first 10) found operands

/-- A program that follows its files does not end. -/
def tail : Tool := fun s args =>
  let args := match args with
    | first :: rest => (match first.toList with
      | '+' :: c :: cs =>
        if (c :: cs).all Char.isDigit then "-n" :: first :: rest else spelledOut args
      | _ => spelledOut args)
    | [] => []
  withOptions { partsKnown with long := ("follow", 'f') :: partsKnown.long } 1 s args
    fun found operands =>
      let w := parts s tailShare? (.last 10) found operands
      let follows := has found 'f' || has found 'F'
      if follows && !operands.isEmpty && w.out != {} then w.print ⟨[], .silent⟩ else w

/-! ## Numbers of lines -/

structure Numbering where
  all : Bool := false
  none : Bool := false
  width : Nat := 6
  separator : String := "\t"
  start : Int := 1
  step : Int := 1
  format : String := "rn"

def Numbering.label (f : Numbering) (n : Int) : String :=
  let ds := Nat.toDigits 10 n.natAbs
  let sign := if n < 0 then ['-'] else []
  let gap (c : Char) := List.replicate (f.width - sign.length - ds.length) c
  String.ofList (match f.format with
    | "ln" => sign ++ ds ++ gap ' '
    | "rz" => sign ++ gap '0' ++ ds
    | _ => gap ' ' ++ sign ++ ds)

def Numbering.lines (f : Numbering) : Int → List Bytes → List Bytes
  | _, [] => []
  | n, line :: lines =>
    if !f.none && (f.all || !line.isEmpty) then
      (Text.utf8 (f.label n ++ f.separator) ++ ended line) :: f.lines (n + f.step) lines
    else
      let gap := List.replicate (f.width + f.separator.utf8ByteSize) (32 : UInt8)
      (gap ++ ended line) :: f.lines n lines

def nl : Tool := fun s args =>
  withOptions { plain := "p", valued := "bsvwinhfdl" } 1 s args fun found operands =>
    let whole (letter : Char) (standard : Int) : Int :=
      ((value? found letter).bind Arithmetic.ofText?).getD standard
    let f : Numbering :=
      { all := value? found 'b' == some "a"
        none := value? found 'b' == some "n"
        width := (whole 'w' 6).toNat
        separator := (value? found 's').getD "\t"
        start := whole 'v' 1
        step := whole 'i' 1
        format := (value? found 'n').getD "rn" }
    filtered s operands fun data => (f.lines f.start (bareLines data)).flatten

end BlockCanvas.Sandbox.Tool
