import SchemaCompiler.Shell.Parser.Token

/-!
# Reading commands

A script is read line by line, and a line only when those before it have run, so what stands before a
faulty line still runs, and aliases stand for what they were last given. A line may go on over its end
inside of a compound command.
-/

namespace SchemaCompiler.Shell

open Reader

/-- The parsers that commands nest in one another by, one level of nesting further down. -/
structure Level where
  command : Reader Command
  nested : Nested

namespace Level

variable (l : Level)

/-! ## Lists of commands -/

/-- Commands joined by a pipe. -/
def pipeline : Reader Command := do
  replaced l.nested
  let negated ← eat l.nested "!"
  if negated then replaced l.nested
  let first ← l.command
  let rest ← more (← rounds)
  let whole := match rest with
    | some rest => .pipe first rest
    | none => first
  return if negated then .not whole else whole
where
  /-- The commands behind a pipe. -/
  more : Nat → Reader (Option Command)
    | 0 => return none
    | fuel + 1 => do
      if ← eat l.nested "|" then
        commandStart l.nested
        let next ← l.command
        match ← more fuel with
        | some rest => return some (.pipe next rest)
        | none => return some next
      return none

/-- Commands of which each runs as the one before it turned out. -/
def andOr : Reader Command := do
  let first ← l.pipeline
  more first (← rounds)
where
  more (left : Command) : Nat → Reader Command
    | 0 => return left
    | fuel + 1 => do
      if ← eat l.nested "&&" then
        newlines l.nested
        let right ← l.pipeline
        more (.andThen left right) fuel
      else if ← eat l.nested "||" then
        newlines l.nested
        let right ← l.pipeline
        more (.orElse left right) fuel
      else return left

/-- Takes a separator behind a command, which it may send to the background. -/
def separated (command : Command) : Reader (Command × Bool) := do
  if ← eat l.nested "&" then return (.background command, true)
  if ← eat l.nested ";" then return (command, true)
  return (command, (← token) matches .newline)

def join : Command → Command → Command
  | .nothing, second => second
  | first, second => .sequence first second

/-- Commands up to a token that ends them. -/
def listFrom : Nat → Command → Bool → Reader Command
  | 0, before, _ => return before
  | fuel + 1, before, mayStop => do
    commandStart l.nested
    let t ← token
    if (t matches .endOfFile) || (mayStop && t.endsList) then return before
    let (command, more) ← l.separated (← l.andOr)
    let all := join before command
    if more then listFrom fuel all true else return all

def list (mayBeEmpty : Bool) : Reader Command := do
  l.listFrom (← rounds) .nothing mayBeEmpty

/-- Commands up to the end of a line. -/
def lineFrom : Nat → Command → Reader Command
  | 0, before => return before
  | fuel + 1, before => do
    replaced l.nested
    match ← token with
    | .newline => return before
    | .endOfFile => return before
    | _ =>
      let (command, more) ← l.separated (← l.andOr)
      let all := join before command
      if more then lineFrom fuel all
      else if (← token) matches .endOfFile then return all
      else unexpected none

def line : Reader Command := do
  l.lineFrom (← rounds) .nothing

/-! ## Redirections -/

/-- Removes the tabs at the start of a line. -/
def stripTabs (stripped : Bool) (line : List Char) : List Char :=
  if stripped then line.dropWhile (· = '\t') else line

def linesOf (chars : List Char) : List (List Char) := chars.splitOn '\n'

/-- Takes the lines up to a delimiter out of a text, from its second line on. -/
def takeDocument (delimiter : List Char) (stripped : Bool) (t : Text) : List Char × Text :=
  match linesOf t.chars with
  | [] => ([], t)
  | first :: later =>
    let isBody := fun line => stripTabs stripped line ≠ delimiter
    let body := (later.takeWhile isBody).map (stripTabs stripped)
    let rest := later.drop (body.length + 1)
    let ended := if body.length < later.length then body.flatMap (· ++ ['\n'])
      else List.intercalate ['\n'] body
    (ended, { t with chars := List.intercalate ['\n'] (first :: rest) })

/-- The text of a word as it is written, without its quotes. -/
def plainText : Word → String
  | [] => ""
  | .text chars _ :: rest => chars ++ plainText rest
  | _ :: rest => plainText rest

def isQuoted : Part → Bool
  | .text _ quoted => quoted
  | _ => false

/-- A document from its delimiter on. A quoted delimiter keeps expansions from taking place. -/
def document (stream : Nat) (stripped : Bool) : Reader Redirect := do
  match ← token with
  | .word delimiter =>
    let s ← get
    let (body, text) := takeDocument (plainText delimiter).toList stripped s.text
    set { s with text }
    let parts ←
      if delimiter.any isQuoted then pure [.text (String.ofList body) true]
      else
        match quotedText l.nested { s.text.inner body with line := s.line } with
        | .ok parts => pure parts
        | .error e => throw e
    advance l.nested
    return .mk stream .text parts
  | _ => unexpected none

/-- A redirection, if one is at hand. -/
def redirect : Reader (Option Redirect) := do
  match ← token with
  | .redirect stream mode =>
    advance l.nested
    match ← token with
    | .word target =>
      advance l.nested
      return some (.mk stream mode target)
    | _ => unexpected none
  | .document stream stripped =>
    advance l.nested
    return some (← l.document stream stripped)
  | _ => return none

def redirectsFrom : Nat → Reader (List Redirect)
  | 0 => return []
  | fuel + 1 => do
    match ← l.redirect with
    | some r => return r :: (← redirectsFrom fuel)
    | none => return []

/-! ## Simple commands -/

/-- The name and the value of a word that is an assignment. -/
def assignment? : Word → Option (String × Word)
  | .text chars false :: rest =>
    let name := chars.toList.takeWhile (· ≠ '=')
    if name.length < chars.length && isName (String.ofList name) then
      let value := String.ofList (chars.toList.drop (name.length + 1))
      some (String.ofList name, if value = "" then rest else .text value false :: rest)
    else none
  | _ => none

/-- What has been read of a simple command. -/
structure Draft where
  assignments : List (String × Word) := []
  words : List Word := []
  redirects : List Redirect := []

namespace Draft

def isEmpty (d : Draft) : Bool := d.assignments.isEmpty && d.words.isEmpty && d.redirects.isEmpty

def add (d : Draft) (w : Word) : Draft :=
  match assignment? w with
  | some a =>
    if d.words.isEmpty then { d with assignments := d.assignments ++ [a] }
    else { d with words := d.words ++ [w] }
  | none => { d with words := d.words ++ [w] }

/-- The name of the function that a parenthesis behind a draft defines. -/
def functionName? (d : Draft) : Option String :=
  match d.words with
  | [w] => if d.assignments.isEmpty && d.redirects.isEmpty then some (plainText w) else none
  | _ => none

end Draft

def draftFrom : Nat → Draft → Reader Draft
  | 0, d => return d
  | fuel + 1, d => do
    if d.words.isEmpty || (← get).mayBeAlias then replaced l.nested
    match ← token with
    | .word w =>
      advance l.nested
      draftFrom fuel (d.add w)
    | _ =>
      match ← l.redirect with
      | some r => draftFrom fuel { d with redirects := d.redirects ++ [r] }
      | none => return d

/-- A function behind its name. -/
def functionBehind (name : String) : Reader Command := do
  expect l.nested "("
  expect l.nested ")"
  if !isName name then fail "Bad function name"
  newlines l.nested
  return .function name (← l.command)

def simple : Reader Command := do
  let line := (← get).line
  let d ← l.draftFrom (← rounds) {}
  if d.isEmpty then unexpected none
  match d.functionName? with
  | some name =>
    if ← sees "(" then return ← l.functionBehind name
    return .simple line d.assignments d.words d.redirects
  | none => return .simple line d.assignments d.words d.redirects

/-! ## Compound commands -/

/-- The rest of a condition, behind its first branch. -/
def otherwiseFrom : Nat → Reader Command
  | 0 => return .nothing
  | fuel + 1 => do
    if ← eat l.nested "elif" then
      let condition ← l.list false
      expect l.nested "then"
      let body ← l.list false
      return .ifThen condition body (← otherwiseFrom fuel)
    if ← eat l.nested "else" then return ← l.list false
    return .nothing

def ifThen : Reader Command := do
  let condition ← l.list false
  expect l.nested "then"
  let body ← l.list false
  let otherwise ← l.otherwiseFrom (← rounds)
  expect l.nested "fi"
  return .ifThen condition body otherwise

/-- What is repeated. -/
def doBody : Reader Command := do
  newlines l.nested
  expect l.nested "do"
  let body ← l.list false
  expect l.nested "done"
  return body

def loop (whileTrue : Bool) : Reader Command := do
  let condition ← l.list false
  return .loop whileTrue condition (← l.doBody)

def wordsFrom : Nat → Reader (List Word)
  | 0 => return []
  | fuel + 1 => do
    match ← token with
    | .word w =>
      advance l.nested
      return w :: (← wordsFrom fuel)
    | _ => return []

/-- Whether the word `in` is at hand. -/
def seesIn : Reader Bool := do
  return (← token).literal? == some "in"

def forEach : Reader Command := do
  match (← token).literal? with
  | none => fail "Bad for loop variable"
  | some name =>
    if !isName name then fail "Bad for loop variable"
    advance l.nested
    newlines l.nested
    if ← seesIn then
      advance l.nested
      let words ← l.wordsFrom (← rounds)
      if !(← eat l.nested ";") then
        if !((← token) matches .newline) then unexpected none
      return .forEach name (some words) (← l.doBody)
    let _ ← eat l.nested ";"
    return .forEach name none (← l.doBody)

def patternsFrom : Nat → Reader (List Word)
  | 0 => return []
  | fuel + 1 => do
    match ← token with
    | .word w =>
      advance l.nested
      if ← eat l.nested "|" then return w :: (← patternsFrom fuel)
      return [w]
    | _ => unexpected (some ")")

def branchesFrom : Nat → Reader (List Branch)
  | 0 => return []
  | fuel + 1 => do
    newlines l.nested
    if ← sees "esac" then return []
    let _ ← eat l.nested "("
    let patterns ← l.patternsFrom (← rounds)
    expect l.nested ")"
    let body ← l.list true
    if ← sees "esac" then return [.mk patterns body]
    expect l.nested ";;"
    return .mk patterns body :: (← branchesFrom fuel)

def choose : Reader Command := do
  match ← token with
  | .word subject =>
    advance l.nested
    newlines l.nested
    if !(← seesIn) then unexpected (some "in")
    advance l.nested
    let branches ← l.branchesFrom (← rounds)
    expect l.nested "esac"
    return .choose subject branches
  | _ => unexpected none

/-- A command that starts with a reserved word or a parenthesis, if one is at hand. -/
def compound : Reader (Option Command) := do
  if ← eat l.nested "if" then return some (← l.ifThen)
  if ← eat l.nested "while" then return some (← l.loop true)
  if ← eat l.nested "until" then return some (← l.loop false)
  if ← eat l.nested "for" then return some (← l.forEach)
  if ← eat l.nested "case" then return some (← l.choose)
  if ← eat l.nested "\x7b" then
    let body ← l.list false
    expect l.nested "\x7d"
    return some body
  if ← eat l.nested "(" then
    let body ← l.list false
    expect l.nested ")"
    return some (.subshell body)
  return none

def anyCommand : Reader Command := do
  match ← l.compound with
  | some command =>
    match ← l.redirectsFrom (← rounds) with
    | [] => return command
    | redirects => return .redirected command redirects
  | none =>
    if (← token).reserved?.isSome then unexpected none
    l.simple

/-! ## Scripts -/

/-- The state before the first token of a text. -/
def start (t : Text) : Source := { token := .newline, line := t.line, text := t }

/-- Commands up to a closing parenthesis. -/
def closedScript : Scan Command := do
  let read : Reader Command := do
    advance l.nested
    let body ← l.list true
    if !(← sees ")") then unexpected (some ")")
    return body
  let (body, s) ← read.run (start (← get))
  set s.text
  return body

/-- All commands of a text. -/
def wholeScript (t : Text) : Except Problem Command := do
  let read : Reader Command := do
    advance l.nested
    let body ← l.list true
    if !((← token) matches .endOfFile) then unexpected none
    return body
  let (body, _) ← read.run (start t)
  return body

end Level

/-- A level at which nothing can be read: commands may not nest any further. -/
def exhausted : Level where
  command := Reader.fail "nesting"
  nested := ⟨Scan.fail "nesting", fun t => .error ⟨t.line, "nesting"⟩⟩

/-- Parsers for commands that nest at most `depth` times. -/
def level : Nat → Level
  | 0 => exhausted
  | depth + 1 =>
    { command := fun s => (level depth).anyCommand s
      nested := ⟨fun t => (level depth).closedScript t, fun t => (level depth).wholeScript t⟩ }

/-! ## Lines -/

/-- What comes next in a script. -/
inductive NextLine where
  | ended
  | faulty (problem : Problem)
  /-- The commands of a line, and what stands behind it. -/
  | read (commands : Command) (rest : Source)

namespace Source

/-- The start of a script. -/
def ofText (text : String) : Source := Level.start { chars := text.toList }

/-- Reads a line, in which aliases may stand. Every level of nesting takes a character. -/
def nextLine (s : Source) (aliases : Aliases) : NextLine :=
  if s.token matches .endOfFile then .ended
  else
    let read : Reader Command := do
      let l := level (← rounds)
      advance l.nested
      l.line
    match read.run { s with text := { s.text with aliases } } with
    | .error e => .faulty e
    | .ok (commands, rest) => .read commands rest

end Source

end SchemaCompiler.Shell
