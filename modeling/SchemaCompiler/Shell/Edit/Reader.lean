import SchemaCompiler.Shell.Regex

/-!
# Edits

A script of edits is run on every line. An edit may be made in one line, in the lines of a range, or
in all of them. Edits in braces and labels to go on at are steps of the script like the others.
-/

namespace SchemaCompiler.Shell.Edit

/-- An expression with how it is matched; none is the one that was used last. -/
structure Pattern where
  regex : Option Regex
  ignoreCase : Bool := false

/-- A line that an edit is made in. -/
inductive Address where
  | line (number : Nat)
  /-- A line, and every one that is a number of lines further. -/
  | every (first step : Nat)
  | last
  | matching (p : Pattern)

/-- The last line of a range. -/
inductive RangeEnd where
  | reaching (a : Address)
  /-- A number of lines behind the first one. -/
  | behind (count : Nat)
  /-- The next line whose number can be divided by a number. -/
  | multiple (factor : Nat)

/-- A part of what a match is replaced by. -/
inductive Piece where
  | char (c : Char)
  /-- What a group has matched; the whole match has the number 0. -/
  | part (index : Nat)
  /-- What follows is written in another case, up to the next such part. -/
  | case (mode : Option Bool)
  /-- The next character is written in another case. -/
  | caseOnce (upper : Bool)
deriving DecidableEq, Repr

structure Substitution where
  pattern : Pattern
  replacement : List Piece
  /-- The first match that is replaced. -/
  first : Nat := 1
  /-- All matches behind the first one are replaced too. -/
  every : Bool := false
  prints : Bool := false
  /-- A file that changed lines are written to. -/
  file : Option String := none

inductive Command where
  | delete
  /-- Deletes the first line of the text at hand, and starts over with the rest. -/
  | deleteFirst
  | print
  | printFirst
  | number
  /-- Prints the text at hand so that all of its characters can be seen. -/
  | spellOut
  | quit (prints : Bool) (status : Nat)
  | append (text : String)
  | insert (text : String)
  | change (text : String)
  | substitute (s : Substitution)
  /-- Characters and what takes their place. -/
  | replaceChars (pairs : List (Char × Char))
  /-- Goes to the next line. -/
  | next
  /-- Adds the next line to the text at hand. -/
  | join
  /-- Puts the text at hand aside, or adds it to what was put aside. -/
  | hold (adds : Bool)
  /-- Takes the text that was put aside, or adds it to the text at hand. -/
  | take (adds : Bool)
  | exchange
  | readFile (name : String)
  | writeFile (name : String)
  | label (name : String)
  /-- Goes on behind a label, or at the end; if a condition is given, only when a replacement has
  been made or not. -/
  | jump (name : String) (replaced : Option Bool)
  | enter
  | leave

structure Step where
  first : Option Address := none
  last : Option RangeEnd := none
  negated : Bool := false
  command : Command

/-- The steps behind a label. -/
def behindLabel (name : String) : List Step → Option (List Step)
  | [] => none
  | s :: rest =>
    match s.command with
    | .label other => if other = name then some rest else behindLabel name rest
    | _ => behindLabel name rest

/-- The steps behind the braces that have been opened `depth` times more than closed. -/
def behindBraces : Nat → List Step → List Step
  | _, [] => []
  | depth, s :: rest =>
    match s.command with
    | .enter => behindBraces (depth + 1) rest
    | .leave => if depth ≤ 1 then rest else behindBraces (depth - 1) rest
    | _ => behindBraces depth rest

/-- The labels that steps go to. -/
def targets (steps : List Step) : List String :=
  steps.filterMap fun s =>
    match s.command with
    | .jump name _ => if name = "" then none else some name
    | _ => none

/-! ## Reading scripts of edits -/

/-- What is wrong with a script. -/
inductive Problem where
  /-- The text that is left behind the place shows where. -/
  | faulty (text : String) (rest : List Char)
  | unclosed
  | noLabel (name : String)

/-- What is left of a script, and how many braces are open. -/
structure Input where
  rest : List Char
  depth : Nat := 0
  dialect : Regex.Dialect

abbrev Reader := StateT Input (Except Problem)

namespace Reader

def fail {α : Type} (text : String) : Reader α := do
  throw (.faulty text (← get).rest)

def peek? : Reader (Option Char) := return (← get).rest.head?

/-- Passes over a number of characters. -/
def skip (count : Nat) : Reader Unit := modify fun i => { i with rest := i.rest.drop count }

def takeWhile (test : Char → Bool) : Reader String := do
  let taken := (← get).rest.takeWhile test
  skip taken.length
  return String.ofList taken

def isBlank (c : Char) : Bool := c = ' ' || c = '\t'

/-- The text up to a delimiter that no backslash quotes, and what stands behind it. -/
def delimited (delimiter : Char) : List Char → Option (List Char × List Char)
  | [] => none
  | '\\' :: c :: rest => do
    let (text, behind) ← delimited delimiter rest
    some (if c = delimiter then c :: text else '\\' :: c :: text, behind)
  | c :: rest =>
    if c = delimiter then some ([], rest)
    else do
      let (text, behind) ← delimited delimiter rest
      some (c :: text, behind)

/-- The characters up to the end of a bracket, behind its start, and what stands behind them. A
closing bracket at the start is one of the characters. -/
def bracketText (cs : List Char) : List Char × List Char :=
  let front := match cs with
    | '^' :: ']' :: _ => 2
    | '^' :: _ => 1
    | ']' :: _ => 1
    | _ => 0
  let inner := (cs.drop front).takeWhile (· ≠ ']')
  let count := front + inner.length + 1
  (cs.take count, cs.drop count)

/-- The text of an expression up to a delimiter, and what stands behind it. In brackets the
delimiter is a character like others. -/
def delimitedPattern (delimiter : Char) : Nat → List Char → Option (List Char × List Char)
  | 0, _ => none
  | _, [] => none
  | fuel + 1, '\\' :: c :: rest => do
    let (text, behind) ← delimitedPattern delimiter fuel rest
    some (if c = delimiter then c :: text else '\\' :: c :: text, behind)
  | fuel + 1, c :: rest =>
    if c = delimiter then some ([], rest)
    else if c = '[' then do
      let (inner, rest) := bracketText rest
      let (text, behind) ← delimitedPattern delimiter fuel rest
      some (c :: inner ++ text, behind)
    else do
      let (text, behind) ← delimitedPattern delimiter fuel rest
      some (c :: text, behind)

def takePattern (delimiter : Char) (problem : String) : Reader (List Char) := do
  let cs := (← get).rest
  match delimitedPattern delimiter (cs.length + 1) cs with
  | some (text, rest) =>
    modify ({ · with rest })
    return text
  | none =>
    modify ({ · with rest := [] })
    fail problem

def takeDelimited (delimiter : Char) (problem : String) : Reader (List Char) := do
  match delimited delimiter (← get).rest with
  | some (text, rest) =>
    modify ({ · with rest })
    return text
  | none =>
    modify ({ · with rest := [] })
    fail problem

def number : Reader Nat := return (← takeWhile Char.isDigit).toNat?.getD 0

/-! ### Addresses -/

/-- An expression between delimiters. -/
def pattern (text : List Char) (ignoreCase : Bool) : Reader Pattern := do
  let d := (← get).dialect
  return ⟨if text.isEmpty then none else some (Regex.parse d (String.ofList text)), ignoreCase⟩

/-- Refuses an expression whose parentheses or brackets do not match. -/
def checkPattern (text : List Char) : Reader Unit := do
  if let some problem := Regex.problem? (← get).dialect text then fail problem

/-- An expression as an address, behind the delimiter in front of it. -/
def patternAddress (delimiter : Char) : Reader Address := do
  let text ← takePattern delimiter "unterminated address regex"
  let ignoreCase := (← peek?) = some 'I'
  if ignoreCase then skip 1
  checkPattern text
  return .matching (← pattern text ignoreCase)

def address : Reader (Option Address) := do
  match (← get).rest with
  | '$' :: _ =>
    skip 1
    return some .last
  | '/' :: _ =>
    skip 1
    return some (← patternAddress '/')
  | '\\' :: delimiter :: _ =>
    skip 2
    return some (← patternAddress delimiter)
  | c :: _ =>
    if !c.isDigit then return none
    let first ← number
    if (← peek?) = some '~' then
      skip 1
      return some (.every first (← number))
    return some (.line first)
  | [] => return none

def rangeEnd : Reader RangeEnd := do
  match ← peek? with
  | some '+' =>
    skip 1
    return .behind (← number)
  | some '~' =>
    skip 1
    return .multiple (← number)
  | _ =>
    match ← address with
    | some a => return .reaching a
    | none =>
      skip 1
      fail "unexpected \x60,'"

/-! ### Commands -/

/-- The lines of a text that is put in. A backslash keeps the character behind it. -/
def textBody : List Char → List Char × List Char
  | [] => ([], [])
  | '\\' :: c :: rest =>
    let (text, behind) := textBody rest
    (kept c :: text, behind)
  | '\n' :: rest => ([], '\n' :: rest)
  | c :: rest =>
    let (text, behind) := textBody rest
    (c :: text, behind)
where
  kept : Char → Char
    | 't' => '\t'
    | 'n' => '\n'
    | c => c

/-- A text that is put in. It starts behind blanks, or behind a backslash that keeps them or ends
the line. -/
def lineText : Reader String := do
  let _ ← takeWhile isBlank
  match (← get).rest with
  | [] => fail "expected \\ after \x60a', \x60c' or \x60i'"
  | '\\' :: '\n' :: _ => skip 2
  | '\\' :: _ => skip 1
  | _ => pure ()
  let (text, rest) := textBody (← get).rest
  modify ({ · with rest })
  return String.ofList text

/-- The parts of a replacement. -/
def pieces : List Char → List Piece
  | '\\' :: c :: rest => quoted c :: pieces rest
  | '&' :: rest => .part 0 :: pieces rest
  | c :: rest => .char c :: pieces rest
  | [] => []
where
  quoted (c : Char) : Piece :=
    if c.isDigit then .part (c.toNat - '0'.toNat)
    else
      match c with
      | 'n' => .char '\n'
      | 't' => .char '\t'
      | 'U' => .case (some true)
      | 'L' => .case (some false)
      | 'E' => .case none
      | 'u' => .caseOnce true
      | 'l' => .caseOnce false
      | c => .char c

/-- The name of a file, up to the end of the line. -/
def fileName : Reader String := do
  let _ ← takeWhile isBlank
  let name ← takeWhile (· ≠ '\n')
  if name = "" then fail "missing filename in r/R/w/W commands"
  return name

/-- What the letters behind a substitution add to it. -/
def flags : Nat → Substitution → Reader Substitution
  | 0, s => return s
  | fuel + 1, s => do
    match ← peek? with
    | none => return s
    | some c =>
      if c.isDigit then
        let first ← number
        if first = 0 then fail "number option to \x60s' command may not be zero"
        flags fuel { s with first }
      else if ['\n', ';', '\x7d', '#', ' ', '\t'].contains c then return s
      else
        skip 1
        match c with
        | 'g' =>
          if s.every then fail "multiple \x60g' options to \x60s' command"
          flags fuel { s with every := true }
        | 'p' =>
          if s.prints then fail "multiple \x60p' options to \x60s' command"
          flags fuel { s with prints := true }
        | 'w' => return { s with file := some (← fileName) }
        | _ =>
          if "iI".contains c then
            flags fuel { s with pattern := { s.pattern with ignoreCase := true } }
          else if "emM".contains c then flags fuel s
          else fail "unknown option to \x60s'"

/-- The group with the greatest number that a replacement names. -/
def greatestPart (replacement : List Piece) : Nat :=
  replacement.foldl (fun n p =>
    match p with
    | .part i => max n i
    | _ => n) 0

def substitution (delimiter : Char) : Reader Substitution := do
  let problem := "unterminated \x60s' command"
  let text ← takePattern delimiter problem
  let replacement := pieces (← takeDelimited delimiter problem)
  let s ← flags (← get).rest.length { pattern := ← pattern text false, replacement }
  checkPattern text
  if let some regex := s.pattern.regex then
    let greatest := greatestPart replacement
    if greatest > regex.groups then
      fail ("invalid reference \\" ++ toString greatest ++ " on \x60s' command's RHS")
  return s

/-- What stands for a character in a list of characters. -/
def unescaped : List Char → List Char
  | '\\' :: 'n' :: rest => '\n' :: unescaped rest
  | '\\' :: '\\' :: rest => '\\' :: unescaped rest
  | c :: rest => c :: unescaped rest
  | [] => []

def charPairs (delimiter : Char) : Reader Command := do
  let problem := "unterminated \x60y' command"
  let first := unescaped (← takeDelimited delimiter problem)
  let second := unescaped (← takeDelimited delimiter problem)
  if first.length ≠ second.length then
    fail "strings for \x60y' command are different lengths"
  return .replaceChars (first.zip second)

/-- The name of a label. -/
def labelName : Reader String := do
  let _ ← takeWhile isBlank
  takeWhile fun c => !c.isWhitespace && c ≠ ';'

/-- Only blanks, a semicolon or a line end can stand behind a command. -/
def ending : Reader Unit := do
  let _ ← takeWhile isBlank
  match ← peek? with
  | none => return
  | some c =>
    if c = '\x7d' || c = '#' then return
    skip 1
    if c ≠ ';' && c ≠ '\n' then fail "extra characters after command"

/-- A command that nothing but its end can follow. -/
def simple (c : Command) : Reader Command := do
  ending
  return c

/-- The status behind a command that ends the script. -/
def exitStatus : Reader Nat := do
  let _ ← takeWhile isBlank
  number

def opening : Reader Command := do
  modify fun i => { i with depth := i.depth + 1 }
  return .enter

def closing (addressed : Bool) : Reader Command := do
  let depth := (← get).depth
  if depth = 0 then fail "unexpected \x60\x7d'"
  if addressed then fail "\x7d doesn't want any addresses"
  modify ({ · with depth := depth - 1 })
  simple .leave

/-- A command behind its letter. -/
def commandOf (addressed : Bool) (c : Char) : Reader Command := do
  match c with
  | '\x7b' => opening
  | '\x7d' => closing addressed
  | 'd' => simple .delete
  | 'D' => simple .deleteFirst
  | 'p' => simple .print
  | 'P' => simple .printFirst
  | '=' => simple .number
  | 'l' => simple .spellOut
  | 'n' => simple .next
  | 'N' => simple .join
  | 'h' => simple (.hold false)
  | 'H' => simple (.hold true)
  | 'g' => simple (.take false)
  | 'G' => simple (.take true)
  | 'x' => simple .exchange
  | 'q' => simple (.quit true (← exitStatus))
  | 'Q' => simple (.quit false (← exitStatus))
  | 'a' => return .append (← lineText)
  | 'i' => return .insert (← lineText)
  | 'c' => return .change (← lineText)
  | 'r' => return .readFile (← fileName)
  | 'w' => return .writeFile (← fileName)
  | 'b' => simple (.jump (← labelName) none)
  | 't' => simple (.jump (← labelName) (some true))
  | 'T' => simple (.jump (← labelName) (some false))
  | ':' => do
    if addressed then fail ": doesn't want any addresses"
    let name ← labelName
    if name = "" then fail "\":\" lacks a label"
    simple (.label name)
  | 's' | 'y' => do
    match ← peek? with
    | none => fail ("unterminated \x60" ++ String.ofList [c] ++ "' command")
    | some delimiter =>
      skip 1
      simple (← if c = 's' then do return .substitute (← substitution delimiter)
        else charPairs delimiter)
  | _ => fail ("unknown command: \x60" ++ String.ofList [c] ++ "'")

/-- Whether an address is one in front of the first line. -/
def isZero : Option Address → Bool
  | some (.line 0) => true
  | _ => false

def step : Reader Step := do
  let first ← address
  let last ← if first.isSome && (← peek?) = some ',' then do
      skip 1
      let _ ← takeWhile isBlank
      pure (some (← rangeEnd))
    else pure none
  let _ ← takeWhile isBlank
  let negated := (← peek?) = some '!'
  let _ ← takeWhile fun c => c = '!' || isBlank c
  match ← peek? with
  | none => fail "missing command"
  | some c =>
    skip 1
    let toPattern := match last with
      | some (.reaching (.matching _)) => true
      | _ => false
    if isZero first && !toPattern then fail "invalid usage of line address 0"
    return { first, last, negated, command := ← commandOf first.isSome c }

/-- All steps. Comments go to the end of their lines. -/
def stepsFrom : Nat → Reader (List Step)
  | 0 => return []
  | fuel + 1 => do
    let _ ← takeWhile fun c => c.isWhitespace || c = ';'
    match ← peek? with
    | none => return []
    | some '#' =>
      let _ ← takeWhile (· ≠ '\n')
      stepsFrom fuel
    | some _ =>
      let first ← step
      return first :: (← stepsFrom fuel)

end Reader

/-- The steps of a script, or what is wrong with it. -/
def read (dialect : Regex.Dialect) (script : String) : Except Problem (List Step) := do
  let start : Input := { rest := script.toList, dialect }
  let (steps, final) ← (Reader.stepsFrom (script.length + 1)).run start
  if final.depth > 0 then .error .unclosed
  else
    match (targets steps).find? fun name => (behindLabel name steps).isNone with
    | some name => .error (.noLabel name)
    | none => .ok steps

/-- The status of a run that a problem keeps from starting. -/
def Problem.status : Problem → Nat
  | noLabel _ => 4
  | _ => 1

/-- How a problem is told. -/
def Problem.message (script : String) : Problem → String
  | faulty text rest =>
    "-e expression #1, char " ++ toString (script.length - rest.length) ++ ": " ++ text
  | unclosed => "-e expression #1, char 0: unmatched \x60\x7b'"
  | noLabel name => "can't find label for jump to \x60" ++ name ++ "'"

end SchemaCompiler.Shell.Edit
