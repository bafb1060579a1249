import SchemaCompiler.Shell.Parser.Word

/-!
# Tokens of a script

A script is read token by token: words, operators, redirections and line ends. Comments and blanks
stand between them.
-/

namespace SchemaCompiler.Shell

open Scan

inductive Token where
  | word (parts : Word)
  | operator (text : String)
  /-- A redirection without its target. -/
  | redirect (stream : Nat) (mode : RedirectMode)
  /-- Text as input; the flag tells whether tabs at the start of its lines are dropped. -/
  | document (stream : Nat) (stripped : Bool)
  | newline
  | endOfFile

namespace Token

/-- The words that have a meaning where a command starts. -/
def reserved : List String :=
  ["!", "case", "do", "done", "elif", "else", "esac", "fi", "for", "if", "then", "until", "while",
   "\x7b", "\x7d"]

/-- The text of a word that consists of unquoted text. -/
def literal? : Token → Option String
  | word [.text chars false] => some chars
  | _ => none

/-- The reserved word that a token is. -/
def reserved? (t : Token) : Option String :=
  t.literal?.bind fun w => if reserved.contains w then some w else none

def isOperator (t : Token) (text : String) : Bool :=
  match t with
  | operator o => o == text
  | _ => false

/-- How messages call a token where words may be reserved. -/
def name (t : Token) : String :=
  match t.reserved?, t with
  | some w, _ => "\"" ++ w ++ "\""
  | none, word _ => "word"
  | none, operator text => "\"" ++ text ++ "\""
  | none, redirect _ _ => "redirection"
  | none, document _ _ => "redirection"
  | none, newline => "newline"
  | none, endOfFile => "end of file"

/-- Whether commands end before a token. -/
def endsList (t : Token) : Bool :=
  match t.reserved?, t with
  | some w, _ => ["do", "done", "elif", "else", "esac", "fi", "then", "\x7d"].contains w
  | none, operator text => text == ")" || text == ";;"
  | none, endOfFile => true
  | none, _ => false

end Token

/-- A script with the token at hand. -/
structure Source where
  token : Token
  /-- The line of the token at hand. -/
  line : Nat
  /-- What stands behind the token at hand. -/
  text : Text
  /-- The text of an alias ends with a blank in front of the token at hand. -/
  mayBeAlias : Bool := false

abbrev Reader := StateT Source (Except Problem)

/-- Blanks, comments and joined lines before a token. -/
def gap : List Char → Nat
  | '\\' :: '\n' :: rest => gap rest + 2
  | ' ' :: rest => gap rest + 1
  | '\t' :: rest => gap rest + 1
  | '#' :: rest => 1 + (rest.takeWhile (· ≠ '\n')).length
  | _ => 0

/-- The operator of a redirection at the start of a text, with its length. -/
def redirectAt? (stream : Option Nat) : List Char → Option (Token × Nat)
  | '<' :: '<' :: '-' :: _ => some (.document (stream.getD 0) true, 3)
  | '<' :: '<' :: _ => some (.document (stream.getD 0) false, 2)
  | '<' :: '&' :: _ => some (.redirect (stream.getD 0) .copy, 2)
  | '<' :: '>' :: _ => some (.redirect (stream.getD 0) .read, 2)
  | '<' :: _ => some (.redirect (stream.getD 0) .read, 1)
  | '>' :: '>' :: _ => some (.redirect (stream.getD 1) .append, 2)
  | '>' :: '&' :: _ => some (.redirect (stream.getD 1) .copy, 2)
  | '>' :: '|' :: _ => some (.redirect (stream.getD 1) .overwrite, 2)
  | '>' :: _ => some (.redirect (stream.getD 1) .write, 1)
  | _ => none

/-- A token of fixed text at the start of a text, with its length. -/
def fixedToken? : List Char → Option (Token × Nat)
  | [] => some (.endOfFile, 0)
  | '\n' :: _ => some (.newline, 1)
  | ';' :: ';' :: _ => some (.operator ";;", 2)
  | ';' :: _ => some (.operator ";", 1)
  | '&' :: '&' :: _ => some (.operator "&&", 2)
  | '&' :: _ => some (.operator "&", 1)
  | '|' :: '|' :: _ => some (.operator "||", 2)
  | '|' :: _ => some (.operator "|", 1)
  | '(' :: _ => some (.operator "(", 1)
  | ')' :: _ => some (.operator ")", 1)
  | d :: rest =>
    if d.isDigit then
      (redirectAt? (some (d.toNat - '0'.toNat)) rest).map fun (t, n) => (t, n + 1)
    else redirectAt? none (d :: rest)

/-- Reads the token that comes next. -/
def nextToken (n : Nested) : Scan Token := do
  match fixedToken? (← get).chars with
  | some (t, length) =>
    skip length
    return t
  | none => return .word (← word n)

namespace Reader

def token : Reader Token := do
  return (← get).token

def advance (n : Nested) : Reader Unit := do
  let before := (← get).text
  let ((), start) ← (skip (gap before.chars)).run before
  let (token, text) ← (nextToken n).run start
  set (Source.mk token start.line text (before.endsAlias start.chars.length))

/-- Complains about the token at hand; `expected` is what should have stood there. -/
def unexpected {α : Type} (expected : Option String) : Reader α := do
  let s ← get
  let hint := match expected with
    | some text => " (expecting \"" ++ text ++ "\")"
    | none => ""
  throw ⟨s.text.line, s.token.name ++ " unexpected" ++ hint⟩

def fail {α : Type} (text : String) : Reader α := do
  throw ⟨(← get).line, text⟩

/-- Whether a reserved word or an operator is at hand. -/
def sees (text : String) : Reader Bool := do
  let t ← token
  return t.reserved? == some text || t.isOperator text

def eat (n : Nested) (text : String) : Reader Bool := do
  if ← sees text then
    advance n
    return true
  return false

def expect (n : Nested) (text : String) : Reader Unit := do
  if !(← eat n text) then unexpected (some text)

def newlinesFrom (n : Nested) : Nat → Reader Unit
  | 0 => return
  | fuel + 1 => do
    if (← token) matches .newline then
      advance n
      newlinesFrom n fuel

/-- How many rounds suffice for what goes on to the end of the text. -/
def rounds : Reader Nat := do
  let t := (← get).text
  return (t.chars.length + 2) * t.aliases.growth

/-- Passes over line ends. -/
def newlines (n : Nested) : Reader Unit := do
  newlinesFrom n (← rounds)

def replacedFrom (n : Nested) : Nat → Reader Unit
  | 0 => return
  | fuel + 1 => do
    let s ← get
    match s.token.literal?.filter (!Token.reserved.contains ·) with
    | some name =>
      if let some text := s.text.alias? name then
        set { s with text := s.text.replace name text }
        advance n
        replacedFrom n fuel
    | none => return

/-- Puts its text in the place of an alias, if one is at hand. -/
def replaced (n : Nested) : Reader Unit := do
  replacedFrom n (← rounds)

/-- Line ends and aliases up to the start of a command. -/
def commandStart (n : Nested) : Reader Unit := do
  newlines n
  replaced n
  newlines n

end Reader

end SchemaCompiler.Shell
