import SchemaCompiler.Shell.Awk.Syntax
import SchemaCompiler.Shell.Printf

/-!
# Reading programs for records

A text becomes tokens, and the tokens rules. Two operands side by side are joined, so an expression
goes on as long as something follows that an operand can start with.
-/

namespace SchemaCompiler.Shell.Awk

/-! ## Tokens -/

inductive Token where
  | number (value : Float)
  | text (value : String)
  | regex (source : String)
  | word (text : String)
  /-- A name with a parenthesis right behind it. -/
  | function (name : String)
  | mark (text : String)
  | newline

def Token.spelling : Token → String
  | number x => FloatFormat.positional.write x
  | text s => s
  | regex s => "/" ++ s ++ "/"
  | word w => w
  | function w => w
  | mark m => m
  | newline => "end of line"

/-- Longer marks come first. -/
def marks : List String :=
  ["&&", "||", "++", "--", "+=", "-=", "*=", "/=", "%=", "^=", "==", "<=", ">=", "!=", "!~", ">>",
   "\x7b", "\x7d", "(", ")", "[", "]", ";", ",", "+", "-", "*", "/", "%", "^", "!", ">", "<", "|",
   "?", ":", "~", "$", "="]

def keywords : List String :=
  ["BEGIN", "END", "break", "continue", "delete", "do", "else", "exit", "for", "function", "getline",
   "if", "in", "next", "print", "printf", "return", "while"]

/-- The functions that every program has. -/
def builtinFunctions : List String :=
  ["atan2", "close", "cos", "exp", "fflush", "gsub", "index", "int", "length", "log", "match", "rand",
   "sin", "split", "sprintf", "sqrt", "srand", "sub", "substr", "system", "tolower", "toupper"]

/-- Whether a slash behind a token divides. -/
def Token.endsOperand : Token → Bool
  | number _ => true
  | text _ => true
  | word w => !keywords.contains w
  | mark m => [")", "]", "$", "++", "--"].contains m
  | _ => false

/-- The character that stands for an escape of one letter. -/
def escape? : Char → Option Char
  | '"' => some '"'
  | '\\' => some '\\'
  | '/' => some '/'
  | 'a' => some '\x07'
  | 'b' => some '\x08'
  | 'f' => some '\x0c'
  | 'n' => some '\n'
  | 'r' => some '\r'
  | 't' => some '\t'
  | 'v' => some '\x0b'
  | _ => none

def isOctal (c : Char) : Bool := '0' ≤ c && c ≤ '7'

/-- What a text with escapes stands for. An escape that means nothing keeps its backslash. -/
def unescapedFrom : Nat → List Char → List Char
  | 0, cs => cs
  | _, [] => []
  | fuel + 1, '\\' :: c :: rest =>
    let digits := ((c :: rest).take 3).takeWhile isOctal
    if digits.isEmpty then
      match escape? c with
      | some meant => meant :: unescapedFrom fuel rest
      | none => '\\' :: c :: unescapedFrom fuel rest
    else
      let code := digits.foldl (fun n d => n * 8 + (d.toNat - '0'.toNat)) 0
      Char.ofNat code :: unescapedFrom fuel (rest.drop (digits.length - 1))
  | fuel + 1, c :: rest => c :: unescapedFrom fuel rest

def unescaped (cs : List Char) : List Char := unescapedFrom cs.length cs

/-- A text up to its closing quote, as it is written, and what stands behind it. -/
def textFrom : List Char → Option (List Char × List Char)
  | [] => none
  | '"' :: rest => some ([], rest)
  | '\n' :: _ => none
  | '\\' :: c :: rest => do
    let (more, behind) ← textFrom rest
    some ('\\' :: c :: more, behind)
  | c :: rest => do
    let (more, behind) ← textFrom rest
    some (c :: more, behind)

/-- A regular expression up to its closing slash, and what stands behind it. -/
def regexFrom : List Char → Option (List Char × List Char)
  | [] => none
  | '/' :: rest => some ([], rest)
  | '\n' :: _ => none
  | '\\' :: '/' :: rest => do
    let (more, behind) ← regexFrom rest
    some ('/' :: more, behind)
  | '\\' :: c :: rest => do
    let (more, behind) ← regexFrom rest
    some ('\\' :: c :: more, behind)
  | c :: rest => do
    let (more, behind) ← regexFrom rest
    some (c :: more, behind)

/-- The token at the start of a text that is not blank, and what stands behind it. -/
def tokenAt (divides : Bool) (c : Char) (rest : List Char) : Except String (Token × List Char) :=
  let cs := c :: rest
  if c = '"' then
    match textFrom rest with
    | some (chars, behind) => .ok (.text (String.ofList (unescaped chars)), behind)
    | none => .error ("runaway string constant " ++ String.ofList (cs.take 10) ++ " ...")
  else if c = '/' && !divides then
    match regexFrom rest with
    | some (chars, behind) => .ok (.regex (String.ofList chars), behind)
    | none => .error ("runaway regular expression " ++ String.ofList (cs.take 10) ++ " ...")
  else if isNameStart c then
    let name := cs.takeWhile isNameChar
    let behind := cs.drop name.length
    let text := String.ofList name
    let next := if builtinFunctions.contains text then behind.dropWhile isBlank else behind
    let calls := next.head? = some '(' && !keywords.contains text
    .ok (if calls then .function text else .word text, behind)
  else
    match if c.isDigit || c = '.' then Printf.float? cs else none with
    | some (x, behind) => .ok (.number x, behind)
    | none =>
      match marks.find? (·.toList.isPrefixOf cs) with
      | some m => .ok (.mark m, cs.drop m.length)
      | none => .error ("syntax error at or near " ++ String.ofList [c])

def tokensFrom : Nat → Bool → List Char → Except String (List Token)
  | 0, _, _ => .ok []
  | _, _, [] => .ok []
  | fuel + 1, divides, c :: rest =>
    if c = '\n' then (tokensFrom fuel false rest).map (.newline :: ·)
    else if c.isWhitespace then tokensFrom fuel divides rest
    else if c = '#' then tokensFrom fuel divides (rest.dropWhile (· ≠ '\n'))
    else if c = '\\' && rest.head? = some '\n' then tokensFrom fuel divides rest.tail
    else do
      let (t, behind) ← tokenAt divides c rest
      let more ← tokensFrom fuel t.endsOperand behind
      return t :: more

/-! ## Parsers -/

/-- What is wrong with a program, and the tokens from that place on. -/
structure Failure where
  text : String
  left : List Token

/-- A reader of tokens. -/
abbrev Parse := StateT (List Token) (Except Failure)

/-- What is not allowed in an expression because it means something else there. -/
structure Limits where
  /-- `in` belongs to a loop. -/
  noIn : Bool := false
  /-- `>` belongs to a redirection. -/
  noGreater : Bool := false

def unexpected {α : Type} : Parse α := do
  match ← get with
  | [] => throw ⟨"missing \x7d near end of file", []⟩
  | t :: rest => throw ⟨"syntax error at or near " ++ t.spelling, t :: rest⟩

def atMark (text : String) : Parse Bool := do
  match ← get with
  | .mark m :: _ => return m == text
  | _ => return false

def atWord (text : String) : Parse Bool := do
  match ← get with
  | .word w :: _ => return w == text
  | _ => return false

def drop : Parse Unit := modify List.tail

def eatMark (text : String) : Parse Bool := do
  let found ← atMark text
  if found then drop
  return found

def eatWord (text : String) : Parse Bool := do
  let found ← atWord text
  if found then drop
  return found

def expectMark (text : String) : Parse Unit := do
  if !(← eatMark text) then unexpected

/-- Passes over line ends. -/
def skipLines : Parse Unit :=
  modify fun ts => ts.dropWhile fun t => t matches .newline

/-- Passes over what can stand between two statements. -/
def skipEnds : Parse Unit :=
  modify fun ts => ts.dropWhile fun t =>
    match t with
    | .newline => true
    | .mark m => m == ";"
    | _ => false

/-- A name that is no keyword. -/
def name : Parse String := do
  match ← get with
  | .word w :: rest =>
    if keywords.contains w then unexpected
    set rest
    return w
  | _ => unexpected

/-! ## Expressions -/

/-- Rank of an operator; those that bind more closely rank higher. -/
def rank? : String → Option Nat
  | "||" => some 1
  | "&&" => some 2
  | "~" => some 4
  | "!~" => some 4
  | "<" => some 5
  | "<=" => some 5
  | "==" => some 5
  | "!=" => some 5
  | ">" => some 5
  | ">=" => some 5
  | "+" => some 7
  | "-" => some 7
  | "*" => some 8
  | "/" => some 8
  | "%" => some 8
  | _ => none

def rankOfIn : Nat := 3

def rankOfJoining : Nat := 6

/-- The operator that an assignment combines with; `none` for a plain one. -/
def assignment? : String → Option (Option String)
  | "=" => some none
  | "+=" => some (some "+")
  | "-=" => some (some "-")
  | "*=" => some (some "*")
  | "/=" => some (some "/")
  | "%=" => some (some "%")
  | "^=" => some (some "^")
  | _ => none

/-- Whether a further operand can start with a token. -/
def Token.startsOperand : Token → Bool
  | number _ => true
  | text _ => true
  | regex _ => true
  | word w => !keywords.contains w
  | function _ => true
  | mark m => ["(", "$", "!", "-", "+", "++", "--"].contains m
  | newline => false

/-- What an operator stands in front of. -/
inductive Follow where
  | binary (operator : String) (rank : Nat)
  | contained
  | joined
  | nothing

/-- How an expression goes on. -/
def follow (l : Limits) : Parse Follow := do
  match ← get with
  | .mark m :: _ =>
    match rank? m with
    | some rank => return if m == ">" && l.noGreater then .nothing else .binary m rank
    | none => return if ["(", "$", "!", "++", "--"].contains m then .joined else .nothing
  | .word w :: _ =>
    if w == "in" then return if l.noIn then .nothing else .contained
    return if keywords.contains w then .nothing else .joined
  | t :: _ => return if t.startsOperand then .joined else .nothing
  | [] => return .nothing

mutual

def items (l : Limits) : Nat → Parse (List Expr)
  | 0 => unexpected
  | fuel + 1 => do
    let first ← expr l fuel
    if ← eatMark "," then
      skipLines
      return first :: (← items l fuel)
    return [first]

/-- Arguments in parentheses; the opening one has been passed. -/
def arguments : Nat → Parse (List Expr)
  | 0 => unexpected
  | fuel + 1 => do
    if ← eatMark ")" then return []
    let found ← items {} fuel
    expectMark ")"
    return found

/-- A variable, an item of an array or a field, if one is at hand. -/
def target? : Nat → Parse (Option Target)
  | 0 => return none
  | fuel + 1 => do
    match ← get with
    | .mark "$" :: rest =>
      set rest
      return some (.field (← primary fuel))
    | .word w :: rest =>
      if keywords.contains w || w == "length" then return none
      set rest
      if ← eatMark "[" then
        let key ← items {} fuel
        expectMark "]"
        return some (.item w key)
      return some (.variable w)
    | _ => return none

def primary : Nat → Parse Expr
  | 0 => unexpected
  | fuel + 1 => do
    if let some t ← target? fuel then return .target t
    match ← get with
    | .number x :: rest =>
      set rest
      return .number x
    | .text s :: rest =>
      set rest
      return .text s
    | .regex s :: rest =>
      set rest
      return .regex (Regex.parse .extended s)
    | .word "length" :: rest =>
      set rest
      return .call "length" []
    | .word "getline" :: rest =>
      set rest
      let into ← target? fuel
      if ← eatMark "<" then return .getline into (.file (← primary fuel))
      return .getline into .records
    | .function f :: rest =>
      set rest
      expectMark "("
      return .call f (← arguments fuel)
    | .mark "(" :: rest =>
      set rest
      let found ← items {} fuel
      expectMark ")"
      match found with
      | [only] => return .group [only]
      | several =>
        if ← eatWord "in" then return .contained several (← name)
        return .group several
    | .mark m :: rest =>
      if m == "++" || m == "--" then
        set rest
        match ← target? fuel with
        | some t => return .count t (if m == "++" then 1 else -1) false
        | none => unexpected
      if m == "-" || m == "+" || m == "!" then
        set rest
        return .unary m (← power fuel)
      unexpected
    | _ => unexpected

/-- An operand with `++` or `--` behind it. -/
def counted : Nat → Parse Expr
  | 0 => unexpected
  | fuel + 1 => do
    match ← primary fuel with
    | .target t =>
      if ← eatMark "++" then return .count t 1 true
      if ← eatMark "--" then return .count t (-1) true
      piped fuel (.target t)
    | e => piped fuel e

/-- Lines from the output of a command, which has been read. -/
def piped : Nat → Expr → Parse Expr
  | 0, e => return e
  | fuel + 1, e => do
    match ← get with
    | .mark "|" :: .word "getline" :: rest =>
      set rest
      piped fuel (.getline (← target? fuel) (.command e))
    | _ => return e

/-- An operand, which may be raised to a power. -/
def power : Nat → Parse Expr
  | 0 => unexpected
  | fuel + 1 => do
    let base ← counted fuel
    if ← eatMark "^" then return .binary "^" base (← power fuel)
    return base

def binaryFrom (l : Limits) : Nat → Nat → Expr → Parse Expr
  | 0, _, left => return left
  | fuel + 1, least, left => do
    match ← follow l with
    | .binary operator rank =>
      if rank ≤ least then return left
      drop
      if operator == "&&" || operator == "||" then skipLines
      let first ← power fuel
      let right ← binaryFrom l fuel rank first
      binaryFrom l fuel least (.binary operator left right)
    | .contained =>
      if rankOfIn ≤ least then return left
      drop
      binaryFrom l fuel least (.contained [left] (← name))
    | .joined =>
      if rankOfJoining ≤ least then return left
      let first ← power fuel
      let right ← binaryFrom l fuel rankOfJoining first
      binaryFrom l fuel least (.binary "" left right)
    | .nothing => return left

def expr (l : Limits) : Nat → Parse Expr
  | 0 => unexpected
  | fuel + 1 => do
    let first ← power fuel
    let left ← binaryFrom l fuel 0 first
    if ← eatMark "?" then
      let whenTrue ← expr l fuel
      expectMark ":"
      return .conditional left whenTrue (← expr l fuel)
    match left, ← get with
    | .target t, .mark m :: rest =>
      match assignment? m with
      | some operator =>
        set rest
        return .assign t operator (← expr l fuel)
      | none => return left
    | _, _ => return left

end

/-! ## Statements -/

/-- Where a simple statement ends. -/
def atEnd : Parse Bool := do
  match ← get with
  | [] => return true
  | .newline :: _ => return true
  | .mark m :: _ => return m == ";" || m == "\x7d"
  | _ => return false

def endStatement : Parse Unit := do
  if !(← atEnd) then unexpected
  if !(← eatMark ";") then skipLines

def outputMode? : String → Option OutputMode
  | ">" => some .write
  | ">>" => some .append
  | "|" => some .command
  | _ => none

def atOutput : Parse Bool := do
  match ← get with
  | .mark m :: _ => return (outputMode? m).isSome
  | _ => return false

/-- The operands of `print`, which may be in parentheses, and where they go. -/
def output (fuel : Nat) : Parse (List Expr × Option Redirect) := do
  let found ← if ← atEnd <||> atOutput then pure []
    else items { noGreater := true } fuel
  let found := match found with
    | [.group several] => several
    | found => found
  match ← get with
  | .mark m :: rest =>
    match outputMode? m with
    | some mode =>
      set rest
      return (found, some ⟨mode, ← expr {} fuel⟩)
    | none => return (found, none)
  | _ => return (found, none)

/-- A statement that a line end or semicolon ends. -/
def simple (fuel : Nat) : Parse Statement := do
  match ← get with
  | .word "print" :: rest =>
    set rest
    let (found, redirect) ← output fuel
    return .print found redirect
  | .word "printf" :: rest =>
    set rest
    let (found, redirect) ← output fuel
    return .printf found redirect
  | .word "next" :: rest => do set rest; return .next
  | .word "break" :: rest => do set rest; return .break
  | .word "continue" :: rest => do set rest; return .continue
  | .word "exit" :: rest =>
    set rest
    if ← atEnd then return .exit none
    return .exit (some (← expr {} fuel))
  | .word "return" :: rest =>
    set rest
    if ← atEnd then return .return none
    return .return (some (← expr {} fuel))
  | .word "delete" :: rest =>
    set rest
    match ← target? fuel with
    | some (.item array key) => return .delete array (some key)
    | some (.variable array) => return .delete array none
    | _ => unexpected
  | _ => return .expr (← expr {} fuel)

/-- The names in the head of a loop over keys; the opening parenthesis has been passed. -/
def loopKeys? : Parse (Option (String × String)) := do
  match ← get with
  | .word x :: .word "in" :: .word a :: .mark ")" :: rest =>
    set rest
    return some (x, a)
  | _ => return none

mutual

def statement : Nat → Parse Statement
  | 0 => unexpected
  | fuel + 1 => do
    match ← get with
    | .mark "\x7b" :: _ => return .block (← block fuel)
    | .mark ";" :: rest =>
      set rest
      return .block []
    | .word "if" :: rest =>
      set rest
      let test ← parenthesized fuel
      let whenTrue ← statement fuel
      let behind ← get
      skipEnds
      if ← eatWord "else" then
        skipLines
        return .branch test whenTrue (some (← statement fuel))
      set behind
      return .branch test whenTrue none
    | .word "while" :: rest =>
      set rest
      let test ← parenthesized fuel
      return .while test (← statement fuel)
    | .word "do" :: rest =>
      set rest
      skipLines
      let body ← statement fuel
      skipEnds
      if !(← eatWord "while") then unexpected
      let test ← parenthesized fuel
      return .doWhile body test
    | .word "for" :: rest =>
      set rest
      expectMark "("
      if let some (x, array) ← loopKeys? then
        skipLines
        return .each x array (← statement fuel)
      let start ← if ← atMark ";" then pure none else some <$> simple fuel
      expectMark ";"
      let test ← if ← atMark ";" then pure none else some <$> expr {} fuel
      expectMark ";"
      let step ← if ← atMark ")" then pure none else some <$> simple fuel
      expectMark ")"
      skipLines
      return .for start test step (← statement fuel)
    | _ =>
      let s ← simple fuel
      endStatement
      return s

/-- The test of a branch or a loop. -/
def parenthesized : Nat → Parse Expr
  | 0 => unexpected
  | fuel + 1 => do
    expectMark "("
    let test ← expr {} fuel
    expectMark ")"
    skipLines
    return test

def statements : Nat → Parse (List Statement)
  | 0 => unexpected
  | fuel + 1 => do
    skipEnds
    if ← eatMark "\x7d" then return []
    let first ← statement fuel
    return first :: (← statements fuel)

/-- Statements in braces. -/
def block : Nat → Parse (List Statement)
  | 0 => unexpected
  | fuel + 1 => do
    expectMark "\x7b"
    statements fuel

end

/-! ## Rules -/

def rulePattern (fuel : Nat) : Parse RulePattern := do
  if ← atMark "\x7b" then return .always
  if ← eatWord "BEGIN" then return .start
  if ← eatWord "END" then return .finish
  let first ← expr {} fuel
  if ← eatMark "," then
    skipLines
    return .range first (← expr {} fuel)
  return .when first

def rule (fuel : Nat) : Parse Rule := do
  let pattern ← rulePattern fuel
  if ← atMark "\x7b" then return ⟨pattern, ← block fuel⟩
  match pattern with
  | .start => unexpected
  | .finish => unexpected
  | _ => return ⟨pattern, [.print [] none]⟩

/-- The names of parameters up to a closing parenthesis. -/
def parametersFrom : Nat → Parse (List String)
  | 0 => unexpected
  | fuel + 1 => do
    if ← eatMark ")" then return []
    let first ← name
    if !(← atMark ")") then expectMark ","
    skipLines
    return first :: (← parametersFrom fuel)

/-- A function behind the word `function`. -/
def function (fuel : Nat) : Parse Function := do
  let title ← match ← get with
    | .function f :: rest => do
      set rest
      pure f
    | _ => name
  expectMark "("
  let parameters ← parametersFrom fuel
  skipLines
  return ⟨title, parameters, ← block fuel⟩

def programFrom : Nat → Program → Parse Program
  | 0, p => return p
  | fuel + 1, p => do
    skipEnds
    if (← get).isEmpty then return p
    if ← eatWord "function" then
      let f ← function fuel
      programFrom fuel { p with functions := p.functions ++ [f] }
    else
      let r ← rule fuel
      programFrom fuel { p with rules := p.rules ++ [r] }

/-- All of a program. The functions that are called have to be there. -/
def program (tokens : List Token) : Parse Program := do
  let p ← programFrom (8 * tokens.length + 8) {}
  let missing := tokens.findSome? fun t =>
    match t with
    | .function f =>
      if builtinFunctions.contains f || p.functions.any (·.name = f) then none else some f
    | _ => none
  match missing with
  | some f => throw ⟨"function " ++ f ++ " never defined", []⟩
  | none => return p

/-- What is wrong with a program, and in which line of it. -/
structure Problem where
  line : Nat
  text : String

def lineEnds (tokens : List Token) : Nat := (tokens.filter fun t => t matches .newline).length

/-- The place of a failure. The end of a program counts as the line behind its last one. -/
def Failure.problem (f : Failure) (tokens : List Token) : Problem :=
  ⟨lineEnds tokens - lineEnds f.left + if f.left.isEmpty then 2 else 1, f.text⟩

/-- Reads a program. -/
def parse (text : String) : Except Problem Program :=
  match tokensFrom (text.length + 1) false text.toList with
  | .error problem => .error ⟨1, problem⟩
  | .ok tokens =>
    match (program tokens).run tokens with
    | .ok (program, _) => .ok program
    | .error f => .error (f.problem tokens)

end SchemaCompiler.Shell.Awk
