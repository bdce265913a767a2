import BlockCanvas.Sandbox.Format
import BlockCanvas.Sandbox.Regex
import BlockCanvas.Sandbox.Tool.Basic

/-!
Programs that print what their arguments say: texts, formats, numbers counted up, names of files.
-/
namespace BlockCanvas.Sandbox.Tool
open Host

/-! ## Texts -/

def echo : Tool := fun s args =>
  let (feed, args) := match args with
    | "-n" :: rest => (false, rest)
    | _ => (true, args)
  let known : Escapes := { longZero := true, stops := true }
  let (data, stopped) := known.bytes (" ".intercalate args)
  s.idle.printBytes (if feed && !stopped then data ++ [10] else data)

def echoOptions : List String → List Char × List String
  | [] => ([], [])
  | arg :: args =>
    match arg.toList with
    | '-' :: c :: cs =>
      if (c :: cs).all fun c => c == 'n' || c == 'e' || c == 'E' then
        let (letters, rest) := echoOptions args
        (c :: cs ++ letters, rest)
      else ([], arg :: args)
    | _ => ([], arg :: args)

def echoPlain : Tool := fun s args =>
  let (letters, rest) := echoOptions args
  let text := " ".intercalate rest
  let known : Escapes := { longZero := true, hex := true, stops := true }
  let (data, stopped) :=
    if (letters.filter (· != 'n')).getLast? == some 'e' then known.bytes text
    else (Text.utf8 text, false)
  s.idle.printBytes (if letters.contains 'n' || stopped then data else data ++ [10])

def printf (d : Dialect) : Tool := fun s args =>
  let bare := args.head? == some "--"
  match if bare then args.tail else args with
  | [] =>
    match d with
    | .builtin => s.idle.complain s.name "usage: printf format [arg ...]" 2
    | .program => misused s "missing operand" 1
  | format :: rest =>
    let option? : Option Char := match format.toList with
      | '-' :: c :: _ => if d == .builtin && !bare then some c else none
      | _ => none
    match option? with
    | some c => s.idle.complain s.name ("Illegal option -" ++ String.singleton c) 2
    | none =>
      let (data, complaints) := Format.print d format rest
      let status (c : Format.Complaint) : Nat :=
        match c with
        | .excess _ => 0
        | c => if c.isFatal && d == .builtin then 2 else 1
      let spoken := complaints.filter fun c => match c with
        | .excess _ => d == .program
        | _ => true
      let w := spoken.foldl
        (fun w c => w.complain s.name (c.text d) (max w.status (status c))) s.idle
      w.printBytes data

def yes : Tool := fun s args =>
  withOptions {} 1 s args fun _ operands =>
    let line := if operands.isEmpty then "y" else " ".intercalate operands
    s.idle.print ⟨[], .cycle (Text.utf8 (line ++ "\n"))⟩

def printenv : Tool := fun s args =>
  withOptions { plain := "0" } 2 s args fun _ operands =>
    if operands.isEmpty then
      s.environment.foldl (fun w (name, value) => w.printText (name ++ "=" ++ value ++ "\n")) s.idle
    else
      operands.foldl (fun w name =>
        match s.environment.lookup name with
        | some value => w.printText (value ++ "\n")
        | none => { w with status := 1 }) s.idle

/-! ## Numbers -/

structure Shown where
  decimal : Decimal
  places : Nat
  width : Nat

def shown? (text : String) : Option Shown :=
  let (negative, body) : Bool × List Char := match text.toList with
    | '-' :: cs => (true, cs)
    | '+' :: cs => (false, cs)
    | cs => (false, cs)
  match Format.decimalPrefix body with
  | some (d, []) =>
    let fraction := (body.dropWhile (· != '.')).drop 1
    let places := if fraction.any (fun c => c == 'e' || c == 'E') then (-d.exponent).toNat
      else fraction.length
    some ⟨⟨d.significand, d.exponent⟩, places, body.length + (if negative then 1 else 0)⟩
  | _ => none

def isNegative (text : String) : Bool :=
  text.startsWith "-"

def units (places : Nat) (text : String) (n : Shown) : Int :=
  let size : Int := n.decimal.significand * Int.pow 10 (n.decimal.exponent + places).toNat
  if isNegative text then -size else size

def countedUp (first step last : Int) : List Int :=
  let n := if step > 0 then (last - first) / step else (first - last) / (-step)
  if n < 0 then [] else (List.range (n.toNat + 1)).map fun (i : Nat) => first + step * (i : Int)

def unitsText (places width : Nat) (n : Int) : String :=
  let cs := Format.pointed places n.natAbs
  let sign := if n < 0 then ['-'] else []
  String.ofList (sign ++ List.replicate (width - sign.length - cs.length) '0' ++ cs)

/-- Negative numbers are operands, not options. -/
def seqOptions : Nat → List String → Except String (Options × List String)
  | 0, args => .ok ([], args)
  | _ + 1, [] => .ok ([], [])
  | n + 1, arg :: args =>
    match arg.toList with
    | '-' :: c :: _ =>
      if c.isDigit || c == '.' then .ok ([], arg :: args)
      else if arg == "--" then .ok ([], args)
      else do
        let known : Known :=
          { plain := "w", valued := "sf", strict := true
            long := [("equal-width", 'w'), ("separator", 's'), ("format", 'f')] }
        let (found, rest) ← options known 1 (arg :: args)
        let (more, operands) ← seqOptions n rest
        return (found ++ more, operands)
    | _ => .ok ([], arg :: args)

def seq : Tool := fun s args =>
  match seqOptions (args.length + 1) args with
  | .error text => misused s text 1
  | .ok (found, operands) =>
    match operands, operands.find? fun text => (shown? text).isNone with
    | [], _ => misused s "missing operand" 1
    | _ :: _ :: _ :: extra :: _, _ => misused s ("extra operand " ++ quoted extra) 1
    | _, some text =>
      if text == "inf" then s.idle.print ⟨Text.utf8 (lines 0 100000), .silent⟩
      else misused s ("invalid floating point argument: " ++ quoted text) 1
    | _, none =>
      let (first, step, last) := match operands with
        | [first, step, last] => (first, step, last)
        | [first, last] => (first, "1", last)
        | _ => ("1", "1", operands.headD "1")
      match shown? first, shown? step, shown? last with
      | some f, some i, some l =>
        let deep := max (max f.places i.places) l.places
        let u := units deep
        if u step i == 0 then misused s ("invalid Zero increment value: " ++ quoted step) 1
        else
          let places := max f.places i.places
          let numbers := countedUp (u first f) (u step i) (u last l)
          let rounded := numbers.map fun n => n / Int.pow 10 (deep - places)
          let plain (n : Int) : String := unitsText places 0 n
          let width := if has found 'w' then
            ((rounded.map fun n => (plain n).length).foldl max 0) else 0
          let texts := match value? found 'f' with
            | some format => rounded.map fun n =>
              Text.lossy (Format.print .program format [plain n]).1
            | none => rounded.map (unitsText places width)
          let separator := (value? found 's').getD "\n"
          if texts.isEmpty then s.idle
          else s.idle.printText (separator.intercalate texts ++ "\n")
      | _, _, _ => s.idle
where
  lines (start count : Nat) : String :=
    String.join ((List.range count).map fun i => toString (start + i + 1) ++ "\n")

/-! ## Names of files -/

def lastName (path : String) : String :=
  ((Files.names path).filter (· != "")).getLast?.getD (if path.isEmpty then "" else "/")

def withoutEnding (name ending : String) : String :=
  if name.endsWith ending && name != ending then
    String.ofList (name.toList.take (name.length - ending.length))
  else name

def basename : Tool := fun s args =>
  withOptions { plain := "az", valued := "s", strict := true } 1 s args fun found operands =>
    let mark := if has found 'z' then "\x00" else "\n"
    match operands, has found 'a' || has found 's' with
    | [], _ => misused s "missing operand" 1
    | names, true =>
      names.foldl (fun w name =>
        w.printText (withoutEnding (lastName name) ((value? found 's').getD "") ++ mark)) s.idle
    | [name], false => s.idle.printText (lastName name ++ mark)
    | [name, ending], false => s.idle.printText (withoutEnding (lastName name) ending ++ mark)
    | _ :: _ :: extra :: _, false => misused s ("extra operand " ++ quoted extra) 1

def directoryName (path : String) : String :=
  let strip (cs : List Char) : List Char := cs.dropWhile (· == '/')
  let rest := strip ((strip path.toList.reverse).dropWhile (· != '/'))
  if rest.isEmpty then (if Files.isAbsolute path then "/" else ".") else String.ofList rest.reverse

def dirname : Tool := fun s args =>
  withOptions { plain := "z" } 1 s args fun _ operands =>
    if operands.isEmpty then misused s "missing operand" 1
    else operands.foldl (fun w name => w.printText (directoryName name ++ "\n")) s.idle

def pwd (d : Dialect) : Tool := fun s args =>
  match (args.filter fun arg => arg != "-L" && arg != "-P").head?.map String.toList with
  | some ('-' :: letter :: _) =>
    match d with
    | .builtin => s.idle.complain s.name ("Illegal option -" ++ String.singleton letter) 2
    | .program => misused s (invalid letter) 1
  | _ => s.idle.printText (Files.written s.directory ++ "\n")

/-! ## Time -/

def milliseconds? (text : String) : Option (Option Nat) :=
  let cs := text.toList
  if text == "infinity" || text == "inf" then some none
  else
    match Format.decimalPrefix cs with
    | none => none
    | some (d, unit) =>
      let factor? : Option Nat := match unit with
        | [] => some 1
        | ['s'] => some 1
        | ['m'] => some 60
        | ['h'] => some 3600
        | ['d'] => some 86400
        | _ => none
      factor?.map fun factor =>
        some (Format.scaled (d.significand * Nat.pow 10 d.exponent.toNat * factor)
          (Nat.pow 10 (-d.exponent).toNat) 3)

def sleep : Tool := fun s args =>
  withOptions {} 1 s args fun _ operands =>
    match operands, operands.find? fun text => (milliseconds? text).isNone with
    | [], _ => misused s "missing operand" 1
    | _, some text => misused s ("invalid time interval " ++ quoted text) 1
    | _, none =>
      match operands.mapM fun text => (milliseconds? text).join with
      | some times => { s.idle with delay := times.foldl (· + ·) 0 }
      | none => s.idle.print ⟨[], .silent⟩

/-! ## Expressions -/

abbrev Term := Except String (String × List String)

def isNull (text : String) : Bool :=
  let ds := if text.startsWith "-" then text.toList.drop 1 else text.toList
  ds.all (· == '0') && (text.isEmpty || !ds.isEmpty)

def wholeNumber? (text : String) : Option Int :=
  let (negative, ds) : Bool × List Char := match text.toList with
    | '-' :: ds => (true, ds)
    | ds => (false, ds)
  if ds.isEmpty || !ds.all Char.isDigit then none
  else some (if negative then -(Decimal.natOf ds : Int) else Decimal.natOf ds)

def arithmetic (operator a b : String) : Except String String :=
  match wholeNumber? a, wholeNumber? b with
  | some m, some n =>
    match operator with
    | "+" => .ok (toString (m + n))
    | "-" => .ok (toString (m - n))
    | "*" => .ok (toString (m * n))
    | "/" => if n == 0 then .error "division by zero" else .ok (toString (m.tdiv n))
    | _ => if n == 0 then .error "division by zero" else .ok (toString (m.tmod n))
  | _, _ => .error "non-integer argument"

def comparison (operator a b : String) : String :=
  let order := match wholeNumber? a, wholeNumber? b with
    | some m, some n => compare m n
    | _, _ => compare a b
  let holds : Bool := match operator with
    | "<" => order == .lt
    | "<=" => order != .gt
    | "=" => order == .eq
    | "==" => order == .eq
    | "!=" => order != .eq
    | ">=" => order != .lt
    | _ => order == .gt
  if holds then "1" else "0"

def exprLevels : List (List String) :=
  [["|"], ["&"], ["<", "<=", "=", "==", "!=", ">=", ">"], ["+", "-"], ["*", "/", "%"], [":"]]

/-- What an expression fits at the start of a text: the text of its group, or how long the match is. -/
def matched (text expression : String) : Except String String :=
  match Regex.read false (Regex.chars (Text.utf8 expression)) with
  | .error fault => .error fault.text
  | .ok r =>
    match r.find? false 1 [] { rest := Regex.chars (Text.utf8 text) }, r.groupCount with
    | some f, 0 => .ok (toString f.text.length)
    | some f, _ => .ok (Text.lossy (Regex.bytes ((f.groups.lookup 1).getD [])))
    | none, 0 => .ok "0"
    | none, _ => .ok ""

def combine (operator a b : String) : Except String String :=
  match operator with
  | "|" => .ok (if !isNull a then a else if !isNull b then b else "0")
  | "&" => .ok (if isNull a || isNull b then "0" else a)
  | ":" => matched a b
  | _ =>
    if ["+", "-", "*", "/", "%"].contains operator then arithmetic operator a b
    else .ok (comparison operator a b)

def exprChain (operand : String → List String → Term) (level : List String) :
    Nat → String → List String → Term
  | 0, a, rest => .ok (a, rest)
  | n + 1, a, rest =>
    match rest with
    | operator :: more =>
      if level.contains operator then do
        let (b, rest) ← operand operator more
        exprChain operand level n (← combine operator a b) rest
      else .ok (a, rest)
    | [] => .ok (a, rest)

def exprLevelled (operand : String → List String → Term) (size : Nat) :
    List (List String) → String → List String → Term
  | [], before, ts => operand before ts
  | level :: tighter, before, ts => do
    let (a, rest) ← exprLevelled operand size tighter before ts
    exprChain (exprLevelled operand size tighter) level size a rest

def exprTerm : Nat → String → List String → Term
  | 0, _, _ => .error "syntax error"
  | n + 1, before, ts =>
    match ts with
    | [] => .error ("syntax error: missing argument after " ++ quoted before)
    | "(" :: rest => do
      let (a, rest) ← exprLevelled (exprTerm n) ts.length exprLevels "(" rest
      match rest with
      | ")" :: rest => return (a, rest)
      | next :: _ => throw ("syntax error: expecting ')' instead of " ++ quoted next)
      | [] => throw ("syntax error: expecting ')' after " ++ quoted (ts.getLast?.getD ""))
    | "+" :: text :: rest => .ok (text, rest)
    | "match" :: text :: expression :: rest => return (← matched text expression, rest)
    | "length" :: text :: rest => .ok (toString text.utf8ByteSize, rest)
    | "index" :: text :: set :: rest =>
      .ok (toString ((text.toList.findIdx? fun c => set.contains c).elim 0 (· + 1)), rest)
    | "substr" :: text :: start :: size :: rest =>
      match wholeNumber? start, wholeNumber? size with
      | some m, some n =>
        .ok (if m ≤ 0 || n ≤ 0 then ""
          else String.ofList ((text.toList.drop (m.toNat - 1)).take n.toNat), rest)
      | _, _ => .ok ("", rest)
    | text :: rest => .ok (text, rest)

def expr : Tool := fun s args =>
  let args := if args.head? == some "--" then args.tail else args
  if args.isEmpty then misused s "missing operand" 2
  else
    match exprLevelled (exprTerm (args.length + 1)) args.length exprLevels "" args with
    | .error text => s.idle.complain s.name text 2
    | .ok (text, []) => { s.idle.printText (text ++ "\n") with status := if isNull text then 1 else 0 }
    | .ok (_, next :: _) =>
      s.idle.complain s.name ("syntax error: unexpected argument " ++ quoted next) 2

end BlockCanvas.Sandbox.Tool
