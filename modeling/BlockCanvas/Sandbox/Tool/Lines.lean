import BlockCanvas.Sandbox.Tool.Basic

/-!
Programs that count, order and cut lines.
-/
namespace BlockCanvas.Sandbox.Tool
open Host

/-! ## Counts -/

def isGap (b : UInt8) : Bool :=
  b == 32 || (9 ≤ b && b ≤ 13)

def countWords (data : Bytes) : Nat :=
  (data.foldl (fun (found : Nat × Bool) b =>
    if isGap b then (found.1, false) else (if found.2 then found.1 else found.1 + 1, true))
    (0, false)).1

def longestLine (data : Bytes) : Nat :=
  ((bareLines data).map fun line =>
    line.foldl (fun n b =>
      if b == 9 then (n / 8 + 1) * 8 else if 32 ≤ b && b < 127 then n + 1 else n) 0).foldl max 0

def counts (letters : List Char) (data : Bytes) : List Nat :=
  let letters := if letters.isEmpty then ['l', 'w', 'c'] else letters
  let ask (c : Char) (n : Nat) : List Nat := if letters.contains c then [n] else []
  ask 'l' (data.count 10) ++ ask 'w' (countWords data) ++ ask 'm' data.length ++
    ask 'c' data.length ++ ask 'L' (longestLine data)

def addCounts (letters : List Char) (a b : List Nat) : List Nat :=
  let sums := List.zipWith (· + ·) a b
  match letters.contains 'L', a.getLast?, b.getLast? with
  | true, some m, some n => sums.dropLast ++ [max m n]
  | _, _, _ => sums

def countWidth (s : Setting) (names : List String) (columns : Nat) : Nat :=
  if columns == 1 && names.length ≤ 1 then 1
  else
    let sizes := names.map fun name =>
      if name == "-" then (if s.fromFile then (s.input.data.length, true) else (0, false))
      else
        match s.files.find s.directory name with
        | .ok (_, .file data _) => (data.length, true)
        | .ok _ => (0, false)
        | .error _ => (0, true)
    let width := (toString ((sizes.map (·.1)).foldl (· + ·) 0)).length
    if sizes.all (·.2) then width else max width 7

def countLine (width : Nat) (numbers : List Nat) (name : String) : String :=
  " ".intercalate (numbers.map (rightAligned width)) ++ (if name.isEmpty then "" else " " ++ name) ++
    "\n"

def wc : Tool := fun s args =>
  withOptions
    { plain := "lwmcL"
      long := [("lines", 'l'), ("words", 'w'), ("chars", 'm'), ("bytes", 'c'),
        ("max-line-length", 'L')] } 1 s args fun found operands =>
    let letters := found.map (·.1)
    let names := if operands.isEmpty then ["-"] else operands
    let width := countWidth s names (counts letters []).length
    let zeros := counts letters []
    let (w, total) := names.foldl
      (fun (w, total) name =>
        let shown := if operands.isEmpty then "" else name
        match openOperand w s name with
        | .ok (flow, w) =>
          match flow.all? with
          | some data =>
            let numbers := counts letters data
            (w.printText (countLine width numbers shown), addCounts letters total numbers)
          | none => (w.print ⟨[], .silent⟩, total)
        | .error t =>
          let w := w.complain s.name (plainly name t) 1
          (if t == .isDirectory then w.printText (countLine width zeros shown) else w, total))
      (s.idle, zeros)
    if names.length > 1 then w.printText (countLine width total "total") else w

/-! ## Order -/

/-- A part of a line that lines are ordered by: fields and, in them, characters, counted from one. An
end character of zero is the end of the field. -/
structure Key where
  field : Nat := 1
  char : Nat := 1
  lastField : Option Nat := none
  lastChar : Nat := 0
  letters : List Char := []

structure Order where
  separator : Option UInt8 := none
  keys : List Key := []
  letters : List Char := []

def blankFields : Nat → Bytes → List Bytes
  | 0, _ => []
  | n + 1, line =>
    if line.isEmpty then []
    else
      let gap := line.takeWhile fun b => b == 32 || b == 9
      let word := (line.drop gap.length).takeWhile fun b => b != 32 && b != 9
      (gap ++ word) :: blankFields n (line.drop (gap.length + word.length))

def splitBytes (separator : UInt8) (line : Bytes) : List Bytes :=
  let (parts, current) := line.foldr
    (fun b (found : List Bytes × Bytes) =>
      if b == separator then (found.2 :: found.1, []) else (found.1, b :: found.2))
    ([], [])
  current :: parts

def Order.fields (o : Order) (line : Bytes) : List Bytes :=
  match o.separator with
  | some b => splitBytes b line
  | none => blankFields (line.length + 1) line

def Order.offset (o : Order) (line : Bytes) (field : Nat) : Nat :=
  let before := (o.fields line).take (field - 1)
  (before.map List.length).foldl (· + ·) 0 + (if o.separator.isSome then before.length else 0)

def skipBlanks (line : Bytes) : Bytes :=
  line.dropWhile fun b => b == 32 || b == 9

def Order.part (o : Order) (k : Key) (line : Bytes) : Bytes :=
  let start := o.offset line k.field
  let start := if k.letters.contains 'b'
    then line.length - (skipBlanks (line.drop start)).length else start
  let start := start + (k.char - 1)
  let finish := match k.lastField with
    | none => line.length
    | some field =>
      let from' := o.offset line field
      if k.lastChar == 0 then from' + (((o.fields line)[field - 1]?).getD []).length
      else from' + k.lastChar
  (line.take finish).drop start

def numberOf (places : Nat) (data : Bytes) : Int :=
  let cs := (skipBlanks data).map fun b => Char.ofNat b.toNat
  let (negative, cs) : Bool × List Char := match cs with
    | '-' :: cs => (true, cs)
    | cs => (false, cs)
  let whole := cs.takeWhile Char.isDigit
  let fraction : List Char := match cs.drop whole.length with
    | '.' :: cs => cs.takeWhile Char.isDigit
    | _ => []
  let n := Decimal.natOf (whole ++ (fraction ++ List.replicate places '0').take places)
  if negative then -(n : Int) else n

def upper (b : UInt8) : UInt8 :=
  if 97 ≤ b && b ≤ 122 then b - 32 else b

def compareBytes (a b : Bytes) : Ordering :=
  compare (a.map UInt8.toNat) (b.map UInt8.toNat)

def compareParts (letters : List Char) (a b : Bytes) : Ordering :=
  let order :=
    if letters.contains 'n' || letters.contains 'g' then
      let places := if a.contains 46 || b.contains 46 then 40 else 0
      compare (numberOf places a) (numberOf places b)
    else
      let trimmed (data : Bytes) : Bytes := if letters.contains 'b' then skipBlanks data else data
      let folded (data : Bytes) : Bytes := if letters.contains 'f' then data.map upper else data
      let kept (data : Bytes) : Bytes :=
        if letters.contains 'd' then data.filter fun b =>
          (Char.ofNat b.toNat).isAlphanum || b == 32 || b == 9
        else data
      compareBytes (kept (folded (trimmed a))) (kept (folded (trimmed b)))
  if letters.contains 'r' then order.swap else order

def Order.compareKeys (o : Order) (a b : Bytes) : Ordering :=
  if o.keys.isEmpty then compareParts o.letters a b
  else
    o.keys.foldl (fun found k =>
      let letters := if k.letters.all (· == 'b') then o.letters ++ k.letters else k.letters
      found.then (compareParts letters (o.part k a) (o.part k b))) .eq

def Order.compare (o : Order) (a b : Bytes) : Ordering :=
  let keyed := o.compareKeys a b
  if o.letters.contains 's' || o.letters.contains 'u' then keyed
  else
    keyed.then (if o.letters.contains 'r' then (compareBytes a b).swap else compareBytes a b)

def keyEnd (cs : List Char) : Option (Nat × Nat × List Char) :=
  let field := cs.takeWhile Char.isDigit
  let rest := cs.drop field.length
  let (char, rest) : List Char × List Char := match rest with
    | '.' :: rest => (rest.takeWhile Char.isDigit, rest.dropWhile Char.isDigit)
    | rest => ([], rest)
  if field.isEmpty then none
  else some (Decimal.natOf field, if char.isEmpty then 0 else Decimal.natOf char, rest)

def Key.ofText? (text : String) : Option Key := do
  let cs := text.toList
  let first := cs.takeWhile (· != ',')
  let (field, char, letters) ← keyEnd first
  match cs.drop first.length with
  | _ :: second =>
    let (lastField, lastChar, more) ← keyEnd second
    return ⟨field, max char 1, some lastField, lastChar, letters ++ more⟩
  | [] => return ⟨field, max char 1, none, 0, letters⟩

def withoutRepeats (same : Bytes → Bytes → Bool) : List Bytes → List Bytes
  | a :: b :: lines =>
    if same a b then withoutRepeats same (a :: lines) else a :: withoutRepeats same (b :: lines)
  | lines => lines
termination_by lines => lines.length

def sort : Tool := fun s args =>
  withOptions
    { plain := "bdfgnrusmcCziMhV", valued := "kot"
      long := [("reverse", 'r'), ("unique", 'u'), ("numeric-sort", 'n'), ("ignore-case", 'f'),
        ("key", 'k'), ("field-separator", 't'), ("output", 'o'), ("stable", 's'), ("check", 'c'),
        ("ignore-leading-blanks", 'b')] } 2 s args fun found operands =>
    let keys := (found.filter (·.1 == 'k')).map (·.2)
    match keys.find? fun text => (Key.ofText? text).isNone with
    | some text => s.idle.complain s.name
        ("invalid number at field start: invalid count at start of " ++ quoted text) 2
    | none =>
      let o : Order :=
        { separator := ((value? found 't').map Text.utf8).bind List.head?
          keys := keys.filterMap Key.ofText?
          letters := found.map (·.1) }
      let complaint (name : String) (t : Trouble) : String :=
        (if t == .isDirectory then "read failed: " else "cannot read: ") ++ name ++ ": " ++ t.reason
      let w := eachInput s complaint operands fun w _ flow => w.print flow
      let ordered (data : Bytes) : Bytes :=
        let lines := (bareLines data).mergeSort fun a b => o.compare a b != .gt
        let lines := if has found 'u' then
          withoutRepeats (fun a b => o.compareKeys a b == .eq) lines else lines
        (lines.map ended).flatten
      if w.status != 0 then
        { (w.mapOut fun _ => {}) with status := 2 }
      else if has found 'c' then
        let lines := bareLines w.out.data
        let disorder := ((lines.zip (lines.drop 1)).zipIdx 2).find? fun pair =>
          o.compare pair.1.1 pair.1.2 == .gt
        match disorder with
        | none => w.mapOut fun _ => {}
        | some ((_, line), n) =>
          (w.mapOut fun _ => {}).complain s.name
            (operands.headD "-" ++ ":" ++ toString n ++ ": disorder: " ++ asText line) 1
      else
        match value? found 'o' with
        | none => w.mapOut (·.whole ordered)
        | some name =>
          match w.files.write s.directory name (ordered w.out.data) false with
          | .ok files => { (w.mapOut fun _ => {}) with files }
          | .error t => w.complain s.name ("open failed: " ++ plainly name t) 2

/-! ## Repeated lines -/

def runs (same : Bytes → Bytes → Bool) : List Bytes → List (Bytes × Nat)
  | [] => []
  | line :: lines =>
    match runs same lines with
    | (first, n) :: more =>
      if same line first then (line, n + 1) :: more else (line, 1) :: (first, n) :: more
    | [] => [(line, 1)]

def skipFields : Nat → Bytes → Bytes
  | 0, line => line
  | n + 1, line => skipFields n ((skipBlanks line).dropWhile fun b => b != 32 && b != 9)

def uniq : Tool := fun s args =>
  withOptions
    { plain := "cduDiz", valued := "fsw"
      long := [("count", 'c'), ("repeated", 'd'), ("unique", 'u'), ("ignore-case", 'i')] } 1 s args
    fun found operands =>
      match operands with
      | _ :: _ :: extra :: _ => misused s ("extra operand " ++ quoted extra) 1
      | _ =>
        let amount (letter : Char) : Nat := ((value? found letter).bind String.toNat?).getD 0
        let looked (line : Bytes) : Bytes :=
          let rest := (skipFields (amount 'f') line).drop (amount 's')
          let rest := if has found 'w' then rest.take (amount 'w') else rest
          if has found 'i' then rest.map upper else rest
        let change (data : Bytes) : Bytes :=
          let groups := runs (fun a b => looked a == looked b) (bareLines data)
          let groups := groups.filter fun group =>
            (!has found 'd' || group.2 > 1) && (!has found 'u' || group.2 == 1) &&
              (!has found 'D' || group.2 > 1)
          (groups.flatMap fun group =>
            let line := (if has found 'c' then Text.utf8 (rightAligned 7 group.2 ++ " ") else []) ++
              ended group.1
            if has found 'D' then (List.replicate group.2 line).flatten else line)
        let w := filtered s (operands.take 1) change
        match operands with
        | [_, target] =>
          match w.files.write s.directory target w.out.data false with
          | .ok files => { (w.mapOut fun _ => {}) with files }
          | .error t => w.complain s.name (plainly target t) 1
        | _ => w

/-! ## Columns -/

abbrev Ranges := List (Nat × Option Nat)

inductive RangeFault where
  | zero
  | decreasing
  | invalid (text : String)
  | missing

def rangeOf (text : String) : Except RangeFault (Nat × Option Nat) :=
  let number (cs : List Char) : Except RangeFault (Option Nat) :=
    if cs.isEmpty then .ok none
    else if !cs.all Char.isDigit then .error (.invalid text)
    else if Decimal.natOf cs == 0 then .error .zero
    else .ok (some (Decimal.natOf cs))
  let cs := text.toList
  let first := cs.takeWhile (· != '-')
  match cs.drop first.length with
  | [] => do
    match ← number first with
    | some n => return (n, some n)
    | none => throw .zero
  | _ :: second => do
    match ← number first, ← number second with
    | none, none => throw .missing
    | some m, some n => if n < m then throw .decreasing else return (m, some n)
    | m, n => return (m.getD 1, n)

def Ranges.has (r : Ranges) (n : Nat) : Bool :=
  r.any fun range => range.1 ≤ n && range.2.all (n ≤ ·)

def rangesOf (text : String) : Except RangeFault Ranges :=
  ((text.replace " " ",").splitOn ",").mapM rangeOf

def RangeFault.text (inFields : Bool) : RangeFault → String
  | .zero => if inFields then "fields are numbered from 1" else "byte/character positions are numbered from 1"
  | .decreasing => "invalid decreasing range"
  | .invalid text => (if inFields then "invalid field value " else "invalid byte/character position ") ++
    quoted text
  | .missing => "invalid range with no endpoint: -"

def chosen {α : Type} (r : Nat → Bool) (l : List α) : List α :=
  ((l.zipIdx 1).filter fun entry => r entry.2).map (·.1)

def cut : Tool := fun s args =>
  withOptions
    { plain := "nsz", valued := "bcdfO"
      long := [("fields", 'f'), ("characters", 'c'), ("bytes", 'b'), ("delimiter", 'd'),
        ("only-delimited", 's'), ("output-delimiter", 'O'), ("complement", 'z')] } 1 s args
    fun found operands =>
      match found.filter fun option => option.1 == 'b' || option.1 == 'c' || option.1 == 'f' with
      | [] => misused s "you must specify a list of bytes, characters, or fields" 1
      | _ :: _ :: _ => misused s "only one list may be specified" 1
      | [(letter, list)] =>
        let inFields := letter == 'f'
        let delimiter := (value? found 'd').getD "\t"
        if has found 'd' && delimiter.utf8ByteSize > 1 then
          misused s "the delimiter must be a single character" 1
        else if has found 'd' && !inFields then
          misused s "an input delimiter may be specified only when operating on fields" 1
        else
          match rangesOf list with
          | .error fault => misused s (fault.text inFields) 1
          | .ok ranges =>
            let wanted (n : Nat) : Bool := ranges.has n != has found 'z'
            let mark := (Text.utf8 delimiter).headD 0
            let joint := Text.utf8 ((value? found 'O').getD delimiter)
            let line (line : Bytes) : Bytes :=
              if !inFields then ended (chosen wanted line)
              else if !line.contains mark then (if has found 's' then [] else ended line)
              else ended (joint.intercalate (chosen wanted (splitBytes mark line)))
            filtered s operands fun data => ((bareLines data).map line).flatten

def sideBySide (marks : List Bytes) : Nat → List (List Bytes) → List Bytes
  | 0, _ => []
  | n + 1, files =>
    if files.all List.isEmpty then []
    else
      let cells := files.map fun lines => lines.headD []
      let marked := (cells.zipIdx).flatMap fun (cell, i) =>
        (if i == 0 then [] else ((marks[(i - 1) % marks.length]?).getD [])) ++ cell
      ended marked :: sideBySide marks n (files.map List.tail)

/-- The same as `sideBySide` with the input dealt out to the dashes among the names. -/
def dealt (count : Nat) (lines : List Bytes) (position : Nat) : List Bytes :=
  ((lines.zipIdx).filter fun entry => entry.2 % count == position).map (·.1)

def paste : Tool := fun s args =>
  withOptions { plain := "sz", valued := "d", long := [("serial", 's'), ("delimiters", 'd')] } 1 s args
    fun found operands =>
      let names := if operands.isEmpty then ["-"] else operands
      let known : Escapes := {}
      let marks := (marksOf known ((value? found 'd').getD "\t").toList.length
        ((value? found 'd').getD "\t").toList)
      let marks := if marks.isEmpty then [[]] else marks
      let dashes := (names.filter (· == "-")).length
      let step (w : Work × List (List Bytes) × Nat) (name : String) : Work × List (List Bytes) × Nat :=
        let (w, files, used) := w
        if name == "-" then
          let lines := bareLines s.input.data
          ({ w with input := {} },
            files ++ [if has found 's' then lines else dealt dashes lines used], used + 1)
        else
          match s.files.read s.directory name with
          | .ok flow => (w, files ++ [bareLines flow.data], used)
          | .error t => (w.complain s.name (plainly name t) 1, files, used)
      let (w, files, _) := names.foldl step (s.idle, [], 0)
      if w.status != 0 then w
      else if has found 's' then
        files.foldl (fun w lines =>
          w.printBytes ((sideBySide marks 1 (lines.map ([·]))).flatten)) w
      else
        w.printBytes ((sideBySide marks ((files.map List.length).foldl max 0 + 1) files).flatten)
where
  marksOf (known : Escapes) : Nat → List Char → List Bytes
    | 0, _ => []
    | _ + 1, [] => []
    | n + 1, '\\' :: cs =>
      match cs with
      | '0' :: rest => [] :: marksOf known n rest
      | _ =>
        match known.read cs with
        | (some data, rest) => data :: marksOf known n rest
        | (none, _) => []
    | n + 1, c :: cs => charBytes c :: marksOf known n cs

def blankBreak (line : Bytes) : Option Nat :=
  let tail := line.reverse.dropWhile fun b => b != 32 && b != 9
  if tail.isEmpty then none else some tail.length

def folded (width : Nat) (atBlanks : Bool) : Nat → Bytes → List Bytes
  | 0, _ => []
  | n + 1, line =>
    if line.length ≤ width then [line]
    else
      let size := if atBlanks then (blankBreak (line.take width)).getD width else width
      line.take size :: folded width atBlanks n (line.drop size)

def fold : Tool := fun s args =>
  withOptions { plain := "bs", valued := "w", long := [("width", 'w'), ("spaces", 's')] } 1 s
    (spelled args) fun found operands =>
      let text := (value? found 'w').getD "80"
      match text.toNat? with
      | none => s.idle.complain s.name ("invalid number of columns: " ++ quoted text) 1
      | some 0 => s.idle.complain s.name
          ("invalid number of columns: " ++ quoted text ++ ": Numerical result out of range") 1
      | some width =>
        filtered s operands fun data => ((linesOf data).map fun line =>
          let pieces := folded width (has found 's') (line.length + 1) (withoutFeed line)
          ([(10 : UInt8)]).intercalate pieces ++ (if hasFeed line then [10] else [])).flatten
where
  spelled : List String → List String
    | [] => []
    | arg :: args =>
      match arg.toList with
      | '-' :: c :: cs =>
        if (c :: cs).all Char.isDigit then ("-w" ++ String.ofList (c :: cs)) :: args else arg :: args
      | _ => arg :: args

end BlockCanvas.Sandbox.Tool
