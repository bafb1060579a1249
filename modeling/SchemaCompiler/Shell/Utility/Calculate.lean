import SchemaCompiler.Shell.Regex
import SchemaCompiler.Shell.Usage

/-!
# Expressions in words

Each number, text and operator is a word of its own. Numbers are texts that look like numbers.
-/

namespace SchemaCompiler.Shell.Utility

open Exec

/-! ## Expressions -/

inductive WordExpr where
  | text (value : String)
  | operation (operator : String) (left right : WordExpr)
  | length (inner : WordExpr)
  /-- The place of the first character that is one of others. -/
  | index (inner chars : WordExpr)
  | slice (inner start count : WordExpr)

inductive WordProblem where
  | missing (before : String)
  | unexpected (word : String)
  | unclosed (before : String)
  | notNumber
  | zeroDivision

def WordProblem.message : WordProblem → String
  | missing w => "syntax error: missing argument after '" ++ w ++ "'"
  | unexpected w => "syntax error: unexpected argument '" ++ w ++ "'"
  | unclosed w => "syntax error: expecting ')' after '" ++ w ++ "'"
  | notNumber => "non-integer argument"
  | zeroDivision => "division by zero"

/-- The operators, from those that bind least. -/
def wordOperators : List (List String) :=
  [["|"], ["&"], ["<", "<=", "=", "==", "!=", ">=", ">"], ["+", "-"], ["*", "/", "%"], [":"]]

structure WordInput where
  last : String := ""
  rest : List String

abbrev WordReader := StateT WordInput (Except WordProblem)

namespace WordReader

/-- The next word. -/
def next : WordReader String := do
  let input ← get
  match input.rest with
  | [] => throw (.missing input.last)
  | w :: rest =>
    set { last := w, rest : WordInput }
    return w

mutual

def operand : Nat → WordReader WordExpr
  | 0 => do throw (.missing (← get).last)
  | fuel + 1 => do
    match ← next with
    | "(" =>
      let inner ← binary fuel wordOperators
      let input ← get
      match input.rest with
      | ")" :: rest =>
        set { last := ")", rest : WordInput }
        return inner
      | w :: _ => throw (.unexpected w)
      | [] => throw (.unclosed input.last)
    | ")" => throw (.unexpected ")")
    | "+" => return .text (← next)
    | "length" => return .length (← operand fuel)
    | "match" => return .operation ":" (← operand fuel) (← operand fuel)
    | "index" => return .index (← operand fuel) (← operand fuel)
    | "substr" => return .slice (← operand fuel) (← operand fuel) (← operand fuel)
    | w => return .text w

/-- An expression with the operators of some levels. -/
def binary : Nat → List (List String) → WordReader WordExpr
  | 0, _ => do throw (.missing (← get).last)
  | fuel + 1, [] => operand fuel
  | fuel + 1, level :: higher => do
    let first ← binary fuel higher
    more fuel level higher first

/-- The operators of one level behind an expression. -/
def more : Nat → List String → List (List String) → WordExpr → WordReader WordExpr
  | 0, _, _, left => return left
  | fuel + 1, level, higher, left => do
    match (← get).rest with
    | w :: _ =>
      if level.contains w then
        let _ ← next
        let right ← binary fuel higher
        more fuel level higher (.operation w left right)
      else return left
    | [] => return left

end

def whole (words : List String) : Except WordProblem WordExpr := do
  let (e, input) ← (binary (8 * words.length + 16) wordOperators).run { rest := words }
  match input.rest with
  | [] => .ok e
  | w :: _ => .error (.unexpected w)

end WordReader

/-! ## Values -/

/-- A number that a text looks like. -/
def wordNumber? (text : String) : Option Int :=
  let digits := if text.startsWith "-" then text.toList.drop 1 else text.toList
  if digits.isEmpty || !digits.all Char.isDigit then none
  else ((String.ofList digits).toNat?).map fun n => if text.startsWith "-" then -(n : Int) else n

/-- Whether a value counts as false. -/
def isNull (text : String) : Bool := text = "" || wordNumber? text = some 0

/-- What an expression matches at the start of a text: the first group if there is one, or else how
many characters. -/
def matchValue (text pattern : String) : String :=
  let regex := Regex.parse .basic pattern
  match regex.matchAt? false none text.toList with
  | some (found, _) => if regex.groups > 0 then found.part 1 else toString found.text.length
  | none => if regex.groups > 0 then "" else "0"

def compareWords (operator a b : String) : Bool :=
  let order := match wordNumber? a, wordNumber? b with
    | some m, some n => Ord.compare m n
    | _, _ => Ord.compare a b
  match operator with
  | "<" => order = .lt
  | "<=" => order ≠ .gt
  | ">" => order = .gt
  | ">=" => order ≠ .lt
  | "!=" => order ≠ .eq
  | _ => order = .eq

def calculateWords (operator a b : String) : Except WordProblem String := do
  match wordNumber? a, wordNumber? b with
  | some m, some n =>
    match operator with
    | "+" => .ok (toString (m + n))
    | "-" => .ok (toString (m - n))
    | "*" => .ok (toString (m * n))
    | _ =>
      if n = 0 then .error .zeroDivision
      else .ok (toString (if operator = "/" then Int.tdiv m n else Int.tmod m n))
  | _, _ => .error .notNumber

def operateWords (operator a b : String) : Except WordProblem String :=
  if ["+", "-", "*", "/", "%"].contains operator then calculateWords operator a b
  else if operator = ":" then .ok (matchValue a b)
  else .ok (if compareWords operator a b then "1" else "0")

namespace WordExpr

def eval : WordExpr → Except WordProblem String
  | text value => .ok value
  | operation "|" left right => do
    let a ← left.eval
    if !isNull a then return a
    let b ← right.eval
    return if isNull b then "0" else b
  | operation "&" left right => do
    let a ← left.eval
    if isNull a then return "0"
    let b ← right.eval
    return if isNull b then "0" else a
  | operation operator left right => do
    let a ← left.eval
    let b ← right.eval
    operateWords operator a b
  | length inner => do
    let text ← inner.eval
    return toString text.length
  | index inner chars => do
    let text ← inner.eval
    let set ← chars.eval
    return toString (((text.toList.findIdx? set.toList.contains).map (· + 1)).getD 0)
  | slice inner start count => do
    let text ← inner.eval
    let start ← start.eval
    let count ← count.eval
    match wordNumber? start, wordNumber? count with
    | some s, some n =>
      if s ≤ 0 || n ≤ 0 then return ""
      return String.ofList ((text.toList.drop (s.toNat - 1)).take n.toNat)
    | _, _ => return ""

end WordExpr

def calculate (words : List String) : Exec Unit := do
  let words := if words.head? = some "--" then words.tail else words
  if words.isEmpty then
    Usage.refuse { name := "expr", status := 2 } "missing operand"
  else
    match WordReader.whole words >>= WordExpr.eval with
    | .ok value =>
      writeOut (value ++ "\n")
      setStatus (if isNull value then 1 else 0)
    | .error problem => warn 2 ("expr: " ++ problem.message)

end SchemaCompiler.Shell.Utility
