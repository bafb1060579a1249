import SchemaCompiler.Shell.Parser.Word
import SchemaCompiler.Shell.Session

/-!
# Arithmetic

Expressions over whole numbers of 64 bits, with the operators of C. A name stands for the value of
a variable, and a variable without a value for zero.
-/

namespace SchemaCompiler.Shell

inductive Arithmetic where
  | number (value : Int)
  | name (text : String)
  | unary (operator : String) (operand : Arithmetic)
  | binary (operator : String) (left right : Arithmetic)
  | conditional (test whenTrue whenFalse : Arithmetic)
  /-- An assignment, with the operator in front of its `=` if there is one. -/
  | assign (name : String) (operator : Option String) (value : Arithmetic)

namespace Arithmetic

/-! ## Numbers -/

/-- The numbers of 64 bits wrap around. -/
def wrap (n : Int) : Int := Int.bmod n (Nat.pow 2 64)

def digitValue (c : Char) : Nat :=
  if c.isDigit then c.toNat - '0'.toNat
  else if 'a' ≤ c && c ≤ 'f' then c.toNat - 'a'.toNat + 10
  else if 'A' ≤ c && c ≤ 'F' then c.toNat - 'A'.toNat + 10
  else 16

/-- The digits of a base at the start of a text, as a number, and the rest. -/
def digits (base : Nat) (cs : List Char) : Nat × List Char :=
  let found := cs.takeWhile (digitValue · < base)
  (found.foldl (fun n c => n * base + digitValue c) 0, cs.drop found.length)

/-- A number without a sign at the start of a text, in base ten, eight or sixteen. -/
def natural? (cs : List Char) : Option (Nat × List Char) :=
  match cs with
  | '0' :: x :: d :: rest =>
    if (x == 'x' || x == 'X') && digitValue d < 16 then some (digits 16 (d :: rest))
    else some (digits 8 cs)
  | '0' :: _ => some (digits 8 cs)
  | c :: _ => if c.isDigit then some (digits 10 cs) else none
  | [] => none

/-- A number at the start of a text. -/
def integer? (cs : List Char) : Option (Int × List Char) :=
  match cs.dropWhile Char.isWhitespace with
  | '-' :: rest => (natural? rest).map fun (n, behind) => (-(n : Int), behind)
  | '+' :: rest => (natural? rest).map fun (n, behind) => ((n : Int), behind)
  | rest => (natural? rest).map fun (n, behind) => ((n : Int), behind)

/-! ## Reading -/

inductive Symbol where
  | number (value : Int)
  | name (text : String)
  | operator (text : String)
deriving DecidableEq, Repr

/-- Longer operators come first. -/
def operators : List String :=
  ["<<=", ">>=", "<<", ">>", "<=", ">=", "==", "!=", "&&", "||", "+=", "-=", "*=", "/=", "%=",
   "&=", "|=", "^=", "+", "-", "*", "/", "%", "<", ">", "=", "!", "~", "&", "|", "^", "?", ":",
   "(", ")", ","]

def symbolsFrom : Nat → List Char → Option (List Symbol)
  | 0, _ => some []
  | _, [] => some []
  | fuel + 1, c :: rest => do
    let cs := c :: rest
    if c.isWhitespace then symbolsFrom fuel rest
    else if let some (n, behind) := natural? cs then
      let more ← symbolsFrom fuel behind
      some (.number n :: more)
    else if isNameStart c then
      let name := cs.takeWhile isNameChar
      let more ← symbolsFrom fuel (cs.drop name.length)
      some (.name (String.ofList name) :: more)
    else
      let operator ← operators.find? (·.toList.isPrefixOf cs)
      let more ← symbolsFrom fuel (cs.drop operator.length)
      some (.operator operator :: more)

/-- Rank of a binary operator; those that bind more closely rank higher. -/
def rank? : String → Option Nat
  | "||" => some 1
  | "&&" => some 2
  | "|" => some 3
  | "^" => some 4
  | "&" => some 5
  | "==" => some 6
  | "!=" => some 6
  | "<" => some 7
  | "<=" => some 7
  | ">" => some 7
  | ">=" => some 7
  | "<<" => some 8
  | ">>" => some 8
  | "+" => some 9
  | "-" => some 9
  | "*" => some 10
  | "/" => some 10
  | "%" => some 10
  | _ => none

/-- The operator that an assignment combines with; `none` for a plain one. -/
def assignment? : String → Option (Option String)
  | "=" => some none
  | "+=" => some (some "+")
  | "-=" => some (some "-")
  | "*=" => some (some "*")
  | "/=" => some (some "/")
  | "%=" => some (some "%")
  | "&=" => some (some "&")
  | "|=" => some (some "|")
  | "^=" => some (some "^")
  | "<<=" => some (some "<<")
  | ">>=" => some (some ">>")
  | _ => none

/-- A reader of symbols, which fails with what is wrong. -/
abbrev Parse := StateT (List Symbol) (Except String)

def eat (text : String) : Parse Bool := do
  match ← get with
  | .operator o :: rest =>
    if o == text then
      set rest
      return true
    return false
  | _ => return false

mutual

def parsePrimary : Nat → Parse Arithmetic
  | 0 => throw "expecting primary"
  | fuel + 1 => do
    match ← get with
    | .number n :: rest =>
      set rest
      return number n
    | .name text :: rest =>
      set rest
      return name text
    | .operator o :: rest =>
      set rest
      if o == "(" then
        let inner ← parseAssign fuel
        if !(← eat ")") then throw "expecting ')'"
        return inner
      else if ["+", "-", "!", "~"].contains o then return unary o (← parsePrimary fuel)
      else throw "expecting primary"
    | [] => throw "expecting primary"

def parseBinary : Nat → Nat → Arithmetic → Parse Arithmetic
  | 0, _, left => return left
  | fuel + 1, least, left => do
    match ← get with
    | .operator o :: rest =>
      match rank? o with
      | some rank =>
        if rank ≤ least then return left
        set rest
        let first ← parsePrimary fuel
        let right ← parseBinary fuel rank first
        parseBinary fuel least (binary o left right)
      | none => return left
    | _ => return left

def parseConditional : Nat → Parse Arithmetic
  | 0 => throw "expecting primary"
  | fuel + 1 => do
    let first ← parsePrimary fuel
    let test ← parseBinary fuel 0 first
    if ← eat "?" then
      let whenTrue ← parseAssign fuel
      if !(← eat ":") then throw "expecting ':'"
      return conditional test whenTrue (← parseConditional fuel)
    return test

def parseAssign : Nat → Parse Arithmetic
  | 0 => throw "expecting primary"
  | fuel + 1 => do
    match ← get with
    | .name target :: .operator o :: rest =>
      match assignment? o with
      | some operator =>
        set rest
        return assign target operator (← parseAssign fuel)
      | none => parseConditional fuel
    | _ => parseConditional fuel

end

/-- Reads an expression. -/
def parse (text : String) : Except String Arithmetic :=
  match symbolsFrom (text.length + 1) text.toList with
  | none => .error "expecting primary"
  | some symbols =>
    match (parseAssign (4 * symbols.length + 4)).run symbols with
    | .error e => .error e
    | .ok (e, []) => .ok e
    | .ok (_, _ :: _) => .error "expecting EOF"

/-! ## Values -/

def truth (b : Bool) : Int := if b then 1 else 0

/-- The value of an operation that has both its operands. -/
def operate (operator : String) (a b : Int) : Except String Int :=
  match operator with
  | "+" => .ok (wrap (a + b))
  | "-" => .ok (wrap (a - b))
  | "*" => .ok (wrap (a * b))
  | "/" => if b = 0 then .error "division by zero" else .ok (wrap (Int.tdiv a b))
  | "%" => if b = 0 then .error "division by zero" else .ok (Int.tmod a b)
  | "<<" => .ok (wrap (a * Nat.pow 2 (b % 64).toNat))
  | ">>" => .ok (Int.fdiv a (Nat.pow 2 (b % 64).toNat))
  | "<" => .ok (truth (a < b))
  | "<=" => .ok (truth (a ≤ b))
  | ">" => .ok (truth (b < a))
  | ">=" => .ok (truth (b ≤ a))
  | "==" => .ok (truth (a = b))
  | "!=" => .ok (truth (a ≠ b))
  | "&" => .ok (BitVec.ofInt 64 a &&& BitVec.ofInt 64 b).toInt
  | "|" => .ok (BitVec.ofInt 64 a ||| BitVec.ofInt 64 b).toInt
  | "^" => .ok (BitVec.ofInt 64 a ^^^ BitVec.ofInt 64 b).toInt
  | _ => .ok 0

def operateUnary (operator : String) (a : Int) : Int :=
  match operator with
  | "-" => wrap (-a)
  | "!" => truth (a = 0)
  | "~" => -a - 1
  | _ => a

/-- The number that a variable holds. -/
def valueOf (s : Session) (name : String) : Except String Int :=
  match s.parameter? name with
  | none => .ok 0
  | some text =>
    if text = "" then .ok 0
    else
      match integer? text.toList with
      | some (n, behind) =>
        if behind.all Char.isWhitespace then .ok (wrap n) else .error ("Illegal number: " ++ text)
      | none => .error ("Illegal number: " ++ text)

/-- The value of an expression. Of `&&`, `||` and a condition only what is needed is looked at. -/
def eval : Arithmetic → StateT Session (Except String) Int
  | number n => return wrap n
  | name text => do
    match valueOf (← get) text with
    | .ok n => return n
    | .error e => throw e
  | unary operator e => return operateUnary operator (← eval e)
  | binary operator left right => do
    let a ← eval left
    if operator = "&&" then
      if a = 0 then return 0
      return truth ((← eval right) ≠ 0)
    else if operator = "||" then
      if a ≠ 0 then return 1
      return truth ((← eval right) ≠ 0)
    else
      match operate operator a (← eval right) with
      | .ok n => return n
      | .error e => throw e
  | conditional test whenTrue whenFalse => do
    if (← eval test) ≠ 0 then eval whenTrue else eval whenFalse
  | assign target operator e => do
    let b ← eval e
    let value ← match operator with
      | none => pure b
      | some o =>
        match valueOf (← get) target with
        | .error e => throw e
        | .ok a =>
          match operate o a b with
          | .ok n => pure n
          | .error e => throw e
    modify (·.withVariable target (toString value))
    return value

end Arithmetic

/-- The value of an arithmetic expression as text. A faulty one ends the script. -/
def Exec.calculate (text : String) : Exec String := do
  let s ← get
  let found := match Arithmetic.parse text with
    | .ok e => (Arithmetic.eval e).run s
    | .error e => .error e
  match found with
  | .ok (n, s) =>
    set s
    return toString n
  | .error e =>
    abort (if e.startsWith "Illegal" then e
      else "arithmetic expression: " ++ e ++ ": \"" ++ text ++ "\"")
    return ""

end SchemaCompiler.Shell
