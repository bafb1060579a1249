import SchemaCompiler.Shell.Alias

/-!
# Reading words

A word goes on up to a blank, the end of the line or a character with a meaning of its own. Single
quotes quote all up to the next single quote, double quotes all but expansions and a backslash
before one of a few characters, and a backslash outside of quotes quotes one character.

Commands in a word are read by a parser that is passed in.
-/

namespace SchemaCompiler.Shell

/-- The text from the place of reading on, and the number of its first line. -/
structure Text where
  chars : List Char
  line : Nat := 1
  aliases : Aliases := []
  /-- The aliases that have been replaced, with the number of characters behind the text of each. -/
  replaced : List (String × Nat) := []

namespace Text

/-- Whether the place of reading is in the text of an alias. -/
def isWithin (t : Text) (mark : String × Nat) : Bool := mark.2 ≤ t.chars.length

/-- What a word stands for, unless it stands in its own text. -/
def alias? (t : Text) (name : String) : Option String :=
  if t.replaced.any fun mark => mark.1 == name && t.isWithin mark then none
  else t.aliases.lookup name

/-- Puts the text of an alias in front. -/
def replace (t : Text) (name text : String) : Text :=
  { t with
    chars := text.toList ++ t.chars
    replaced := (name, t.chars.length) :: t.replaced.filter t.isWithin }

/-- Whether the text of an alias ends with a blank between the place of reading and a later one, which
has `rest` characters in front of it. -/
def endsAlias (t : Text) (rest : Nat) : Bool :=
  t.replaced.any fun (_, behind) =>
    rest ≤ behind && behind < t.chars.length &&
      t.chars[t.chars.length - behind - 1]?.any fun c => c == ' ' || c == '\t'

/-- A text that stands in this one. -/
def inner (t : Text) (chars : List Char) : Text :=
  { t with chars, replaced := (t.replaced.filter t.isWithin).map fun mark => (mark.1, 0) }

end Text

abbrev Scan := StateT Text (Except Problem)

/-- Readers of the scripts that stand in a word. -/
structure Nested where
  /-- Commands up to a closing parenthesis, which is taken. -/
  closed : Scan Command
  /-- All of a text. -/
  whole : Text → Except Problem Command

namespace Scan

def fail {α : Type} (text : String) : Scan α := do
  throw ⟨(← get).line, text⟩

def peek : Scan (Option Char) := do
  return (← get).chars.head?

/-- Takes a number of characters. -/
def take (n : Nat) : Scan (List Char) := do
  let t ← get
  let taken := t.chars.take n
  set { t with chars := t.chars.drop n, line := t.line + taken.count '\n' : Text }
  return taken

def skip (n : Nat) : Scan Unit := do
  let _ ← take n

/-- Takes the longest start whose characters satisfy a test. -/
def takeWhile (test : Char → Bool) : Scan String := do
  let cs ← take ((← get).chars.takeWhile test).length
  return String.ofList cs

/-- Whether a text comes next. -/
def sees (text : String) : Scan Bool := do
  return text.toList.isPrefixOf (← get).chars

def eat (text : String) : Scan Bool := do
  if ← sees text then
    skip text.length
    return true
  return false

end Scan

open Scan

/-! ## Characters -/

def isBlank (c : Char) : Bool := c == ' ' || c == '\t'

/-- A character that ends a word. -/
def endsWord (c : Char) : Bool := isBlank c || "\n;&|<>()".toList.contains c

def isNameStart (c : Char) : Bool := c.isAlpha || c == '_'

def isNameChar (c : Char) : Bool := c.isAlphanum || c == '_'

def isName (s : String) : Bool :=
  s.toList.head?.any isNameStart && s.toList.all isNameChar

/-- Parameters that are written as one character. -/
def isSpecialParameter (c : Char) : Bool := "@*#?-$!".toList.contains c

/-- The characters that a backslash quotes between double quotes. -/
def isQuotable (c : Char) : Bool := c == '"' || c == '\\' || c == '$' || c == '\x60'

/-- What stands around a part of a word. -/
inductive Quoting where
  | bare
  | double
  /-- As between double quotes, but quotes mean nothing. -/
  | document
deriving DecidableEq, Repr

namespace Quoting

def isQuoted (q : Quoting) : Bool := q ≠ bare

/-- A character that has a meaning of its own. -/
def isActive (c : Char) : Quoting → Bool
  | bare => isQuotable c || c == '\''
  | double => isQuotable c
  | document => isQuotable c && c ≠ '"'

end Quoting

/-! ## Scripts in words -/

/-- The text of a script between backquotes, behind the first of them. -/
def backquotedFrom (inQuotes : Bool) : List Char → Option (List Char × List Char)
  | [] => none
  | '\\' :: c :: rest => do
    let (script, behind) ← backquotedFrom inQuotes rest
    let plain := c == '\x60' || c == '\\' || c == '$' || (inQuotes && c == '"')
    some (if plain then c :: script else '\\' :: c :: script, behind)
  | c :: rest =>
    if c = '\x60' then some ([], rest)
    else do
      let (script, behind) ← backquotedFrom inQuotes rest
      some (c :: script, behind)

/-- The output of a script between backquotes. -/
def backquoted (n : Nested) (quoted : Bool) : Scan Part := do
  skip 1
  let t ← get
  match backquotedFrom quoted t.chars with
  | none =>
    skip t.chars.length
    fail "EOF in backquote substitution"
  | some (script, behind) =>
    skip (t.chars.length - behind.length)
    match n.whole (t.inner script) with
    | .ok command => return .output command quoted
    | .error e => throw e

/-- The text up to two parentheses that close an arithmetic expression; `depth` counts those that
are open. A single one that closes nothing belongs to the text. -/
def arithmeticText : Nat → List Char → Option (List Char)
  | _, [] => none
  | depth, c :: rest =>
    if c = '(' then (arithmeticText (depth + 1) rest).map (c :: ·)
    else if c = ')' && depth = 0 && rest.head? = some ')' then some []
    else (arithmeticText (if c = ')' then depth - 1 else depth) rest).map (c :: ·)

/-! ## Parameters -/

/-- A parameter by its name, its number or its one character. -/
def parameterName : Scan String := do
  match ← peek with
  | none => return ""
  | some c =>
    if isNameStart c then takeWhile isNameChar
    else if c.isDigit then takeWhile Char.isDigit
    else if isSpecialParameter c then return String.ofList (← take 1)
    else return ""

/-- What a parameter does behind a colon or without one. -/
def fallbackOf? : Char → Option Fallback
  | '-' => some .value
  | '=' => some .assign
  | '?' => some .complain
  | '+' => some .alternative
  | _ => none

def closeBrace : Scan Unit := do
  if !(← eat "\x7d") then fail "Missing '\x7d'"

/-- Passes over what stands in braces and means nothing. -/
def senselessRest : Scan Part := do
  if !(← get).chars.contains '\x7d' then fail "Missing '\x7d'"
  let _ ← takeWhile (· ≠ '\x7d')
  closeBrace
  return .senseless

/-- What cuts a value: `%`, `%%`, `#` or `##`. -/
def trimMark (mark : String) : Scan Trim := do
  skip 1
  return ⟨mark == "%", ← eat mark⟩

/-- What stands behind the name of a parameter in braces. What stands in for it is quoted as it is
itself; the pattern of what is cut off is not quoted by quotes around the whole. -/
def behindParameter (words : Quoting → Scan Word) (q : Quoting) (name : String) : Scan Part := do
  let orEmpty ← eat ":"
  match ← peek with
  | none => fail "Missing '\x7d'"
  | some c =>
    match fallbackOf? c with
    | some kind =>
      skip 1
      let w ← words q
      closeBrace
      return .fallback name q.isQuoted kind orEmpty w
    | none =>
      if orEmpty then senselessRest
      else if c = '%' || c = '#' then
        let trim ← trimMark (String.ofList [c])
        let w ← words .bare
        closeBrace
        return .trimmed name q.isQuoted trim w
      else if ← eat "\x7d" then return .parameter name q.isQuoted
      else senselessRest

/-- A parameter in braces, behind the opening one. -/
def bracedParameter (words : Quoting → Scan Word) (q : Quoting) : Scan Part := do
  let measured := (← sees "#") && !(← sees "#\x7d")
  if measured then skip 1
  let name ← parameterName
  if name = "" then senselessRest
  else if measured then
    if ← eat "\x7d" then return .length name q.isQuoted else senselessRest
  else behindParameter words q name

/-! ## Expansions -/

/-- What a dollar sign introduces; `words` reads what stands in braces, and `inner` the parts of an
arithmetic expression. -/
def dollar (n : Nested) (words : Quoting → Scan Word) (inner : List Char → Scan Word)
    (q : Quoting) : Scan Part := do
  skip 1
  if ← sees "((" then
    match arithmeticText 0 ((← get).chars.drop 2) with
    | some expression =>
      skip (expression.length + 4)
      return .arithmetic (← inner expression) q.isQuoted
    | none =>
      skip (← get).chars.length
      fail "Missing '))'"
  if ← eat "(" then return .output (← n.closed) q.isQuoted
  if ← eat "\x7b" then return ← bracedParameter words q
  match ← peek with
  | none => return .text "$" q.isQuoted
  | some c =>
    if isNameStart c then return .parameter (← takeWhile isNameChar) q.isQuoted
    else if c.isDigit || isSpecialParameter c then
      return .parameter (String.ofList (← take 1)) q.isQuoted
    else return .text "$" q.isQuoted

/-- A backslash between double quotes. -/
def quotedBackslash : Scan Word := do
  skip 1
  match ← take 1 with
  | [] => return [.text "\\" true]
  | c :: _ =>
    if c = '\n' then return [.text "" true]
    else if isQuotable c then return [.text (String.ofList [c]) true]
    else return [.text (String.ofList ['\\', c]) true]

/-- A backslash outside of quotes. One at the end of a line joins it to the next. -/
def backslash : Scan Word := do
  skip 1
  match ← take 1 with
  | [] => return [.text "\\" true]
  | c :: _ => return if c = '\n' then [] else [.text (String.ofList [c]) true]

def singleQuoted : Scan Word := do
  skip 1
  let text ← takeWhile (· ≠ '\'')
  if !(← eat "'") then fail "Unterminated quoted string"
  return [.text text true]

/-- Parts in double quotes, which `parts` reads. Where nothing stands between them, the word is
there all the same. -/
def doubleQuoted (parts : Scan Word) : Scan Word := do
  skip 1
  let w ← parts
  if !(← eat "\"") then fail "Unterminated quoted string"
  return if w.isEmpty then [.text "" true] else w

/-- The longest text without a character that means something. -/
def plainText (q : Quoting) (stops : Char → Bool) : Scan Word := do
  let first ← take 1
  let more ← takeWhile fun c => !q.isActive c && !stops c
  return [.text (String.ofList first ++ more) q.isQuoted]

/-- Parts up to a character that satisfies a test. -/
def partsFrom (n : Nested) : Nat → Quoting → (Char → Bool) → Scan Word
  | 0, _, _ => return []
  | fuel + 1, q, stops => do
    match ← peek with
    | none => return []
    | some c =>
      if stops c then return []
      let parts ←
        if !q.isActive c then plainText q stops
        else if c = '\\' then if q = .bare then backslash else quotedBackslash
        else if c = '\'' then singleQuoted
        else if c = '"' then doubleQuoted (partsFrom n fuel .double (· = '"'))
        else if c = '\x60' then do pure [← backquoted n q.isQuoted]
        else do
          let part ← dollar n (fun q => partsFrom n fuel q (· = '\x7d')) (arithmeticParts fuel) q
          pure [part]
      return parts ++ (← partsFrom n fuel q stops)
where
  /-- The parts of an arithmetic expression. -/
  arithmeticParts (fuel : Nat) (expression : List Char) : Scan Word := do
    let t ← get
    match (partsFrom n fuel .document (fun _ => false)).run (t.inner expression) with
    | .ok (w, _) => return w
    | .error e => throw e

/-- A word. -/
def word (n : Nested) : Scan Word := do
  partsFrom n ((← get).chars.length + 1) .bare endsWord

/-- The parts of a text in which quotes mean nothing. -/
def quotedText (n : Nested) (t : Text) : Except Problem Word := do
  let (w, _) ← (partsFrom n (t.chars.length + 1) .document (fun _ => false)).run t
  return w

end SchemaCompiler.Shell
