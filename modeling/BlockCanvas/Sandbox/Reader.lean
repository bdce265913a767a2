import BlockCanvas.Sandbox.Script

/-!
Reading scripts, one line of commands after another. A line that is not well formed is an error with
its number; the lines before it have been read by then.
-/
namespace BlockCanvas.Sandbox

structure SyntaxError where
  line : Nat
  text : String
  deriving DecidableEq, Repr

inductive Symbol where
  | word (w : Word)
  | operator (text : String)
  | angle (descriptor : Option Nat) (text : String)
  | feed
  | finish

/-- What is left of a script. `due` counts the lines of documents that were taken out of it, to be
added at the next line feed; `ahead` is a symbol looked at and not yet taken. -/
structure Input where
  text : List Char
  line : Nat := 1
  due : Nat := 0
  ahead : Option Symbol := none

abbrev Reading := StateT Input (Except SyntaxError)

namespace Reader

def fail {α : Type} (text : String) : Reading α := do
  throw ⟨(← get).line, text⟩

/-! ## Characters -/

def rest : Reading (List Char) := do
  return (← get).text

def goOn (text : List Char) : Reading Unit :=
  modify fun s => { s with text }

def feeds (n : Nat) : Reading Unit :=
  modify fun s => { s with line := s.line + n }

def takeWhile (p : Char → Bool) : Reading (List Char) := do
  let cs ← rest
  let taken := cs.takeWhile p
  goOn (cs.drop taken.length)
  return taken

def blanks : List Char → Nat → List Char × Nat
  | ' ' :: cs, n => blanks cs n
  | '\t' :: cs, n => blanks cs n
  | '\\' :: '\n' :: cs, n => blanks cs (n + 1)
  | '#' :: cs, n => (cs.dropWhile (· != '\n'), n)
  | cs, n => (cs, n)

def isMeta (c : Char) : Bool :=
  c == ' ' || c == '\t' || c == '\n' || c == ';' || c == '&' || c == '|' || c == '<' || c == '>' ||
    c == '(' || c == ')'

def isSpecial (c : Char) : Bool :=
  c == '#' || c == '@' || c == '*' || c == '?' || c == '$' || c == '!' || c == '-'

def isProtected (c : Char) : Bool :=
  c == '$' || c == '"' || c == '\\' || c == '\x60'

inductive Place where
  | bare
  | doubled
  | braces (quoted : Bool)
  | sum (depth : Nat)
  | document

def Place.isQuoted : Place → Bool
  | .bare => false
  | .braces quoted => quoted
  | _ => true

def Place.complaint? : Place → Option String
  | .bare => none
  | .document => none
  | .doubled => some "Unterminated quoted string"
  | .braces true => some "Unterminated quoted string"
  | .braces false => some "Missing '\x7d'"
  | .sum _ => some "Missing '))'"

def backquoted (quoted : Bool) : Nat → List Char → List Char → Option (List Char × List Char)
  | 0, _, _ => none
  | _ + 1, _, [] => none
  | _ + 1, seen, '\x60' :: cs => some (seen.reverse, cs)
  | n + 1, seen, '\\' :: c :: cs =>
    if c == '\x60' || c == '\\' || c == '$' || (quoted && c == '"') then
      backquoted quoted n (c :: seen) cs
    else backquoted quoted n (c :: '\\' :: seen) cs
  | n + 1, seen, c :: cs => backquoted quoted n (c :: seen) cs

def firstOf? (cs : List Char) (table : List String) : Option (String × List Char) :=
  table.findSome? fun s =>
    if s.toList.isPrefixOf cs then some (s, cs.drop s.length) else none

def operators : List String :=
  ["&&", "||", ";;", ";", "&", "|", "(", ")"]

def angles : List String :=
  ["<<-", "<<", ">>", ">&", "<&", "<>", ">|", ">", "<"]

def adjustmentOf : List Char → Option (Adjustment × List Char)
  | ':' :: '-' :: cs => some (.orElse true, cs)
  | '-' :: cs => some (.orElse false, cs)
  | ':' :: '=' :: cs => some (.orAssign true, cs)
  | '=' :: cs => some (.orAssign false, cs)
  | ':' :: '+' :: cs => some (.instead true, cs)
  | '+' :: cs => some (.instead false, cs)
  | ':' :: '?' :: cs => some (.orFail true, cs)
  | '?' :: cs => some (.orFail false, cs)
  | '#' :: '#' :: cs => some (.withoutStart true, cs)
  | '#' :: cs => some (.withoutStart false, cs)
  | '%' :: '%' :: cs => some (.withoutEnd true, cs)
  | '%' :: cs => some (.withoutEnd false, cs)
  | _ => none

def parameterName (cs : List Char) : Option (String × List Char) :=
  match cs with
  | [] => none
  | c :: more =>
    if Script.isNameStart c then
      some (String.ofList (cs.takeWhile Script.isNameChar), cs.dropWhile Script.isNameChar)
    else if c.isDigit then
      some (String.ofList (cs.takeWhile Char.isDigit), cs.dropWhile Char.isDigit)
    else if isSpecial c then some (String.ofList [c], more)
    else none

/-! ## Symbols -/

def keywords : List String :=
  ["!", "case", "do", "done", "elif", "else", "esac", "fi", "for", "if", "in", "then", "until",
    "while", "\x7b", "\x7d"]

def inQuotes (s : String) : String :=
  "\"" ++ s ++ "\""

def Symbol.title : Symbol → String
  | .word w =>
    match w.plain? with
    | some s => if keywords.contains s then inQuotes s else "word"
    | none => "word"
  | .operator text => inQuotes text
  | .angle _ _ => "redirection"
  | .feed => "newline"
  | .finish => "end of file"

def unexpected {α : Type} (s : Symbol) (wanted : Option String) : Reading α :=
  fail (Symbol.title s ++ " unexpected" ++
    match wanted with
    | some w => " (expecting " ++ (if w == "word" then w else inQuotes w) ++ ")"
    | none => "")

def isKeyword (word : String) : Symbol → Bool
  | .word w => w.plain? == some word
  | _ => false

def isOperator (text : String) : Symbol → Bool
  | .operator t => t == text
  | _ => false

def closes : Symbol → Bool
  | .finish => true
  | .operator text => text == ")" || text == ";;"
  | .word w =>
    match w.plain? with
    | some s => ["do", "done", "elif", "else", "esac", "fi", "then", "\x7d"].contains s
    | none => false
  | _ => false

def documentLines (delimiter : List Char) (strip : Bool) :
    Nat → List Char → List Char × List Char × Nat
  | 0, cs => ([], cs, 0)
  | n + 1, cs =>
    if cs.isEmpty then ([], [], 0)
    else
      let line := cs.takeWhile (· != '\n')
      let after := (cs.drop line.length).drop 1
      let line := if strip then line.dropWhile (· == '\t') else line
      if line == delimiter then ([], after, 1)
      else
        let (lines, after, count) := documentLines delimiter strip n after
        (line ++ '\n' :: lines, after, count + 1)

/-! ## Words and commands -/

def gathered (seen : List Piece) : Word :=
  Word.joined seen.reverse

def specialCommands : List String :=
  [".", ":", "break", "continue", "eval", "exec", "exit", "export", "readonly", "return", "set",
    "shift", "times", "trap", "unset"]

mutual
def pieces : Nat → Place → List Piece → Reading Word
  | 0, _, _ => fail "Script too deep"
  | n + 1, place, seen => do
    match ← rest with
    | [] =>
      match place.complaint? with
      | some text => fail text
      | none => return gathered seen
    | c :: cs =>
      match place with
      | .bare =>
        if isMeta c then return gathered seen
        else if c == '\'' then singleQuoted n place seen cs
        else if c == '"' then doubleQuoted n place seen cs
        else special n place seen c cs
      | .doubled =>
        if c == '"' then
          goOn cs
          return gathered seen
        else special n place seen c cs
      | .braces quoted =>
        if c == '\x7d' then
          goOn cs
          return gathered seen
        else if c == '\'' && !quoted then singleQuoted n place seen cs
        else if c == '"' && !quoted then doubleQuoted n place seen cs
        else if c == '"' then
          goOn cs
          pieces n place seen
        else special n place seen c cs
      | .sum depth =>
        if c == '(' then
          goOn cs
          pieces n (.sum (depth + 1)) (.text [c] true :: seen)
        else if c == ')' then
          match depth, cs with
          | 0, ')' :: cs =>
            goOn cs
            return gathered seen
          | 0, _ => fail "Missing '))'"
          | depth + 1, _ =>
            goOn cs
            pieces n (.sum depth) (.text [c] true :: seen)
        else special n place seen c cs
      | .document => special n place seen c cs
def singleQuoted : Nat → Place → List Piece → List Char → Reading Word
  | 0, _, _, _ => fail "Script too deep"
  | n + 1, place, seen, cs => do
    let inside := cs.takeWhile (· != '\'')
    match cs.drop inside.length with
    | [] => fail "Unterminated quoted string"
    | _ :: after =>
      feeds (inside.count '\n')
      goOn after
      pieces n place (.text inside true :: seen)
def doubleQuoted : Nat → Place → List Piece → List Char → Reading Word
  | 0, _, _, _ => fail "Script too deep"
  | n + 1, place, seen, cs => do
    goOn cs
    let inside ← pieces n .doubled []
    pieces n place (if inside.isEmpty then .text [] true :: seen else inside.reverse ++ seen)
def special : Nat → Place → List Piece → Char → List Char → Reading Word
  | 0, _, _, _, _ => fail "Script too deep"
  | n + 1, place, seen, c, cs => do
    goOn cs
    let quoted := place.isQuoted
    if c == '\\' then
      match cs with
      | '\n' :: cs =>
        feeds 1
        goOn cs
        pieces n place seen
      | d :: cs =>
        goOn cs
        let kept := quoted && !(isProtected d && !(d == '"' && place matches .document))
        pieces n place (.text (if kept then ['\\', d] else [d]) true :: seen)
      | [] => pieces n place (.text ['\\'] true :: seen)
    else if c == '$' then
      let piece ← expansion n quoted
      pieces n place (piece :: seen)
    else if c == '\x60' then
      match backquoted quoted (cs.length + 1) [] cs with
      | none => fail "EOF in backquote substitution"
      | some (script, after) =>
        goOn after
        let line := (← get).line
        match (list n true).run { text := script, line } with
        | .ok (command, _) => pieces n place (.output command quoted :: seen)
        | .error e => throw e
    else
      if c == '\n' then feeds 1
      pieces n place (.text [c] quoted :: seen)
def expansion : Nat → Bool → Reading Piece
  | 0, _ => fail "Script too deep"
  | n + 1, quoted => do
    let cs ← rest
    match cs with
    | '(' :: '(' :: cs =>
      goOn cs
      return .sum (← pieces n (.sum 0) []) quoted
    | '(' :: cs =>
      goOn cs
      let command ← list n true
      expectOperator n ")"
      return .output command quoted
    | '\x7b' :: cs =>
      goOn cs
      inBraces n quoted
    | _ =>
      match cs.head?, parameterName cs with
      | some c, some (name, after) =>
        if c.isDigit then
          goOn cs.tail
          return .parameter (String.ofList [c]) quoted .plain []
        else
          goOn after
          return .parameter name quoted .plain []
      | _, _ => return .text ['$'] quoted
def inBraces : Nat → Bool → Reading Piece
  | 0, _ => fail "Script too deep"
  | n + 1, quoted => do
    let cs ← rest
    let bad : Reading Piece := do
      let _ ← takeWhile (· != '\x7d')
      match ← rest with
      | [] => fail ((Place.braces quoted).complaint?.getD "")
      | _ :: after =>
        goOn after
        return .parameter "" quoted .bad []
    let length? : Option (String × List Char) := match cs with
      | '#' :: after =>
        match parameterName after with
        | some (name, '\x7d' :: after) => some (name, after)
        | _ => none
      | _ => none
    match length?, parameterName cs with
    | some (name, after), _ =>
      goOn after
      return .parameter name quoted .length []
    | none, some (name, '\x7d' :: after) =>
      goOn after
      return .parameter name quoted .plain []
    | none, some (name, after) =>
      match adjustmentOf after with
      | none =>
        if after.head? == some ':' then goOn (after.drop 2) else pure ()
        bad
      | some (adjustment, after) =>
        goOn after
        let cuts := match adjustment with
          | .withoutStart _ => true
          | .withoutEnd _ => true
          | _ => false
        return .parameter name quoted adjustment (← pieces n (.braces (quoted && !cuts)) [])
    | none, none => bad
def next : Nat → Reading Symbol
  | 0 => fail "Script too deep"
  | n + 1 => do
    let s ← get
    match s.ahead with
    | some symbol =>
      set { s with ahead := none }
      return symbol
    | none =>
      let (cs, continued) := blanks s.text 0
      feeds continued
      goOn cs
      match cs with
      | [] => return .finish
      | '\n' :: cs =>
        modify fun s => { s with text := cs, line := s.line + 1 + s.due, due := 0 }
        return .feed
      | c :: after =>
        let (descriptor, tail) := if c.isDigit then (some (c.toNat - 48), after) else (none, cs)
        match firstOf? cs operators, firstOf? tail angles with
        | some (text, after), _ =>
          goOn after
          return .operator text
        | none, some (text, after) =>
          goOn after
          return .angle descriptor text
        | none, none => return .word (← pieces n .bare [])
def peek : Nat → Reading Symbol
  | 0 => fail "Script too deep"
  | n + 1 => do
    let symbol ← next n
    modify fun s => { s with ahead := some symbol }
    return symbol
def expectOperator : Nat → String → Reading Unit
  | 0, _ => fail "Script too deep"
  | n + 1, text => do
    let symbol ← next n
    if isOperator text symbol then pure () else unexpected symbol (some text)
def expectWord : Nat → String → Reading Unit
  | 0, _ => fail "Script too deep"
  | n + 1, text => do
    let symbol ← next n
    if isKeyword text symbol then pure () else unexpected symbol (some text)
def skipFeeds : Nat → Reading Unit
  | 0 => fail "Script too deep"
  | n + 1 => do
    if (← peek n) matches .feed then
      let _ ← next n
      skipFeeds n
def list : Nat → Bool → Reading Command
  | 0, _ => fail "Script too deep"
  | n + 1, emptyAllowed => do
    skipFeeds n
    let symbol ← peek n
    if symbol matches .finish then return .nothing
    else if emptyAllowed && closes symbol then return .nothing
    else
      let first ← andOr n
      listAfter n first
def listAfter : Nat → Command → Reading Command
  | 0, _ => fail "Script too deep"
  | n + 1, first => do
    let symbol ← peek n
    let more (first : Command) : Reading Command := do
      let _ ← next n
      skipFeeds n
      if closes (← peek n) then return first
      else return .sequence first (← list n false)
    if symbol matches .feed then more first
    else if isOperator ";" symbol then more first
    else if isOperator "&" symbol then more (.background first)
    else return first
def andOr : Nat → Reading Command
  | 0 => fail "Script too deep"
  | n + 1 => do
    let first ← pipeline n
    andOrAfter n first
def andOrAfter : Nat → Command → Reading Command
  | 0, _ => fail "Script too deep"
  | n + 1, first => do
    let symbol ← peek n
    if isOperator "&&" symbol || isOperator "||" symbol then
      let _ ← next n
      skipFeeds n
      let second ← pipeline n
      andOrAfter n (if isOperator "&&" symbol then .both first second else .either first second)
    else return first
def pipeline : Nat → Reading Command
  | 0 => fail "Script too deep"
  | n + 1 => do
    skipFeeds n
    if isKeyword "!" (← peek n) then
      let _ ← next n
      return .negated (← piped n)
    else piped n
def piped : Nat → Reading Command
  | 0 => fail "Script too deep"
  | n + 1 => do
    let first ← command n
    if isOperator "|" (← peek n) then
      let _ ← next n
      skipFeeds n
      return .pipe first (← piped n)
    else return first
def command : Nat → Reading Command
  | 0 => fail "Script too deep"
  | n + 1 => do
    let symbol ← peek n
    let compound (inside : Reading Command) : Reading Command := do
      let _ ← next n
      let c ← inside
      let redirects ← redirects n
      return if redirects.isEmpty then c else .redirected c redirects
    match symbol with
    | .word w =>
      match w.plain? with
      | some "if" => compound (conditional n)
      | some "while" => compound (repetition n true)
      | some "until" => compound (repetition n false)
      | some "for" => compound (iteration n)
      | some "case" => compound (choice n)
      | some "\x7b" => compound do
          let inside ← list n false
          expectWord n "\x7d"
          return inside
      | some "in" => unexpected symbol none
      | some "!" => unexpected symbol none
      | _ => if closes symbol then unexpected symbol none else simple n (← get).line [] []
    | .angle _ _ => simple n (← get).line [] []
    | .operator "(" => compound do
        let inside ← list n false
        expectOperator n ")"
        return .subshell inside
    | _ => unexpected symbol none
def simple : Nat → Nat → List Word → List Redirect → Reading Command
  | 0, _, _, _ => fail "Script too deep"
  | n + 1, line, words, seen => do
    match ← peek n with
    | .word w =>
      let _ ← next n
      simple n line (w :: words) seen
    | .angle descriptor text =>
      let _ ← next n
      simple n line words ((← redirect n descriptor text) :: seen)
    | .operator "(" =>
      match words, seen with
      | [w], [] =>
        if (Script.assignment? w).isSome then return .simple line words.reverse seen.reverse
        else
          let _ ← next n
          expectOperator n ")"
          match w.plain? with
          | some name =>
            if !Script.isName name || specialCommands.contains name then fail "Bad function name"
            else
              skipFeeds n
              return .function name (← command n)
          | none => fail "Bad function name"
      | _, _ => return .simple line words.reverse seen.reverse
    | _ => return .simple line words.reverse seen.reverse
def redirects : Nat → Reading (List Redirect)
  | 0 => fail "Script too deep"
  | n + 1 => do
    match ← peek n with
    | .angle descriptor text =>
      let _ ← next n
      let first ← redirect n descriptor text
      return first :: (← redirects n)
    | _ => return []
/-- A redirection, after its angle. The document that it may begin is taken out of the lines that
follow. -/
def redirect : Nat → Option Nat → String → Reading Redirect
  | 0, _, _ => fail "Script too deep"
  | n + 1, descriptor, text => do
    match ← next n with
    | .word w =>
      match text with
      | "<" => return .file (descriptor.getD 0) .read w
      | "<>" => return .file (descriptor.getD 0) .update w
      | ">>" => return .file (descriptor.getD 1) .extend w
      | "<&" => return .copy (descriptor.getD 0) w
      | ">&" => return .copy (descriptor.getD 1) w
      | ">" => return .file (descriptor.getD 1) .write w
      | ">|" => return .file (descriptor.getD 1) .write w
      | _ =>
        let (delimiter, quoted) := w.bare
        let s ← get
        let line := s.text.takeWhile (· != '\n')
        let below := (s.text.drop line.length).drop 1
        let (lines, after, count) :=
          documentLines delimiter (text == "<<-") (below.length + 1) below
        set { s with text := line ++ '\n' :: after, due := s.due + count }
        if quoted then return .document (descriptor.getD 0) [.text lines true]
        else
          match (pieces n .document []).run { text := lines, line := s.line + 1 } with
          | .ok (body, _) => return .document (descriptor.getD 0) body
          | .error e => throw e
    | symbol => unexpected symbol none
def conditional : Nat → Reading Command
  | 0 => fail "Script too deep"
  | n + 1 => do
    let condition ← list n false
    expectWord n "then"
    let yes ← list n false
    let symbol ← next n
    if isKeyword "elif" symbol then return .branch condition yes (← conditional n)
    else if isKeyword "else" symbol then
      let no ← list n false
      expectWord n "fi"
      return .branch condition yes no
    else if isKeyword "fi" symbol then return .branch condition yes .nothing
    else unexpected symbol (some "fi")
def repetition : Nat → Bool → Reading Command
  | 0, _ => fail "Script too deep"
  | n + 1, wanted => do
    let condition ← list n false
    expectWord n "do"
    let body ← list n false
    expectWord n "done"
    return .loop wanted condition body
def iteration : Nat → Reading Command
  | 0 => fail "Script too deep"
  | n + 1 => do
    match ← next n with
    | .word w =>
      match w.plain?.filter Script.isName with
      | none => fail "Bad for loop variable"
      | some name =>
        skipFeeds n
        let words ← if isKeyword "in" (← peek n) then do
            let _ ← next n
            let words ← wordList n
            let symbol ← next n
            if symbol matches .feed then pure () else
              if isOperator ";" symbol then pure () else unexpected symbol none
            pure words
          else do
            if isOperator ";" (← peek n) then
              let _ ← next n
            pure [[.parameter "@" true .plain []]]
        skipFeeds n
        expectWord n "do"
        let body ← list n false
        expectWord n "done"
        return .each name words body
    | _ => fail "Bad for loop variable"
def wordList : Nat → Reading (List Word)
  | 0 => fail "Script too deep"
  | n + 1 => do
    match ← peek n with
    | .word w =>
      let _ ← next n
      return w :: (← wordList n)
    | _ => return []
def choice : Nat → Reading Command
  | 0 => fail "Script too deep"
  | n + 1 => do
    match ← next n with
    | .word w =>
      skipFeeds n
      expectWord n "in"
      return .choice w (← clauses n)
    | symbol => unexpected symbol (some "word")
def clauses : Nat → Reading (List (List Word × Command))
  | 0 => fail "Script too deep"
  | n + 1 => do
    skipFeeds n
    if isKeyword "esac" (← peek n) then
      let _ ← next n
      return []
    else
      if isOperator "(" (← peek n) then
        let _ ← next n
      let patterns ← patternList n
      expectOperator n ")"
      let body ← list n true
      let symbol ← next n
      if isKeyword "esac" symbol then return [(patterns, body)]
      else if isOperator ";;" symbol then return (patterns, body) :: (← clauses n)
      else unexpected symbol (some ";;")
/-- Patterns with strokes between them. A symbol that is no word is an empty pattern. -/
def patternList : Nat → Reading (List Word)
  | 0 => fail "Script too deep"
  | n + 1 => do
    let first : Word := match ← next n with
      | .word w => w
      | _ => []
    if isOperator "|" (← peek n) then
      let _ ← next n
      return first :: (← patternList n)
    else return [first]
end

def lineAfter : Nat → Command → Reading Command
  | 0, _ => fail "Script too deep"
  | n + 1, first => do
    let symbol ← next n
    let more (first : Command) : Reading Command := do
      match ← peek n with
      | .feed =>
        let _ ← next n
        return first
      | .finish => return first
      | _ => lineAfter n (.sequence first (← andOr n))
    match symbol with
    | .feed => return first
    | .finish => return first
    | _ =>
      if isOperator ";" symbol then more first
      else if isOperator "&" symbol then more (.background first)
      else unexpected symbol none

def line (n : Nat) : Reading (Option Command) := do
  match ← peek n with
  | .finish => return none
  | .feed =>
    let _ ← next n
    return some .nothing
  | _ => return some (← lineAfter n (← andOr n))

end Reader

def Input.next (input : Input) : Except SyntaxError (Option Command × Input) :=
  (Reader.line (12 * input.text.length + 24)).run input

end BlockCanvas.Sandbox
