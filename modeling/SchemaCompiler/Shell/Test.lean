import SchemaCompiler.Shell.Session

/-!
# Tests

The conditions of `test` and `[`. Which words are operators depends on how many there are.
-/

namespace SchemaCompiler.Shell

namespace Test

inductive Kind where
  | unary
  | binary
  | other
deriving DecidableEq, Repr

def unaryOperators : List String :=
  ["-r", "-w", "-x", "-e", "-f", "-d", "-c", "-b", "-p", "-u", "-g", "-k", "-s", "-t", "-z", "-n",
   "-h", "-L", "-O", "-G", "-S"]

def binaryOperators : List String :=
  ["=", "!=", "<", ">", "-eq", "-ne", "-ge", "-gt", "-le", "-lt", "-nt", "-ot", "-ef"]

/-- The kind of operator that a word is, if it is one. -/
def kindOf? (w : String) : Option Kind :=
  if unaryOperators.contains w then some .unary
  else if binaryOperators.contains w then some .binary
  else if ["!", "-a", "-o", "(", ")"].contains w then some .other
  else none

/-- Whether a word in the place of a unary operator is an operand, by what stands behind it. -/
def isOperand : List String → Bool
  | [] => true
  | [_] => false
  | next :: _ => kindOf? next = some .binary

/-- The kind of operator that the first of some words is. -/
def operatorAt? : List String → Option Kind
  | [] => none
  | w :: rest =>
    match kindOf? w with
    | some .unary => if isOperand rest then none else some .unary
    | kind => if w = "(" && rest.isEmpty then none else kind

/-- A whole number in base ten. -/
def number (text : String) : Except String Int :=
  let trimmed := text.toList.dropWhile Char.isWhitespace
  let digits := match trimmed with
    | '-' :: ds => ds
    | '+' :: ds => ds
    | ds => ds
  let bare := (digits.reverse.dropWhile Char.isWhitespace).reverse
  if bare.isEmpty || !bare.all Char.isDigit then .error ("Illegal number: " ++ text)
  else
    let n : Int := ((String.ofList bare).toNat?.getD 0 : Nat)
    .ok (if trimmed.head? = some '-' then -n else n)

def compareNumbers (operator : String) (a b : Int) : Bool :=
  match operator with
  | "-eq" => a = b
  | "-ne" => a ≠ b
  | "-ge" => a ≥ b
  | "-gt" => a > b
  | "-le" => a ≤ b
  | _ => a < b

/-- Whether two names lead to one place. -/
def isSame (s : Session) (left right : String) : Bool :=
  match s.tree.locate (s.resolve left), s.tree.locate (s.resolve right) with
  | .ok a, .ok b => a == b && s.tree.exists? (s.resolve left)
  | _, _ => false

def binary (s : Session) (left operator right : String) : Except String Bool :=
  match operator with
  | "=" => .ok (left = right)
  | "!=" => .ok (left ≠ right)
  | "<" => .ok (left < right)
  | ">" => .ok (right < left)
  | "-nt" => .ok false
  | "-ot" => .ok false
  | "-ef" => .ok (isSame s left right)
  | _ => do
    let a ← number left
    let b ← number right
    pure (compareNumbers operator a b)

/-- Whether a file has content. -/
def hasContent (s : Session) (path : Path) : Bool :=
  match s.tree.find? path with
  | some .directory => true
  | some (.file content) => content.size ≠ 0
  | none => false

def unary (s : Session) (operator operand : String) : Bool :=
  let path := s.resolve operand
  match operator with
  | "-z" => operand = ""
  | "-n" => operand ≠ ""
  | "-f" => s.tree.isFile path
  | "-d" => s.tree.isDirectory path
  | "-s" => hasContent s path
  | "-x" => s.tree.isDirectory path
  | _ => ["-e", "-r", "-w", "-O", "-G"].contains operator && s.tree.exists? path

/-- A reader of the words of a test, which fails with what is wrong. -/
abbrev Parse := StateT (List String) (Except String)

mutual

/-- A test without operators between tests. -/
def simple (s : Session) : Nat → Parse Bool
  | 0 => return false
  | fuel + 1 => do
    let words ← get
    match words with
    | [] => return false
    | w :: rest =>
      if operatorAt? words = some .other && w = "!" then
        set rest
        return !(← simple s fuel)
      else if operatorAt? words = some .other && w = "(" then
        set rest
        if rest.head? = some ")" then
          set rest.tail
          return false
        let inner ← oneOf s fuel
        match ← get with
        | ")" :: behind =>
          set behind
          return inner
        | _ => throw "closing paren expected"
      else if operatorAt? words = some .unary then
        match rest with
        | [] => throw (w ++ ": argument expected")
        | operand :: behind =>
          set behind
          return unary s w operand
      else
        match rest with
        | operator :: behind =>
          if kindOf? operator = some .binary then
            match behind with
            | [] => throw (operator ++ ": argument expected")
            | right :: behind =>
              set behind
              match binary s w operator right with
              | .ok b => return b
              | .error e => throw e
          else
            set rest
            return w ≠ ""
        | [] =>
          set rest
          return w ≠ ""

/-- Tests that all have to hold. -/
def allOf (s : Session) : Nat → Parse Bool
  | 0 => return false
  | fuel + 1 => do
    let first ← simple s fuel
    match ← get with
    | "-a" :: rest =>
      set rest
      let more ← allOf s fuel
      return first && more
    | _ => return first

/-- Tests of which one has to hold. -/
def oneOf (s : Session) : Nat → Parse Bool
  | 0 => return false
  | fuel + 1 => do
    let first ← allOf s fuel
    match ← get with
    | "-o" :: rest =>
      set rest
      let more ← oneOf s fuel
      return first || more
    | _ => return first

end

/-- The outcome of a test of all words. The last one that was used is blamed for those behind it. -/
def whole (s : Session) (words : List String) : Except String Bool :=
  match (oneOf s (3 * words.length + 3)).run words with
  | .error e => .error e
  | .ok (b, []) => .ok b
  | .ok (_, rest) =>
    .error ((words[words.length - rest.length - 1]?.getD "") ++ ": unexpected operator")

/-- The outcome of a test. Three words with an operator in the middle are never read otherwise. -/
def outcome (s : Session) : List String → Except String Bool
  | [] => .ok false
  | ["(", a, ")"] => if kindOf? a = some .binary then binary s "(" a ")" else whole s [a]
  | ["!", a, b] => if kindOf? a = some .binary then binary s "!" a b else (whole s [a, b]).map not
  | [a, operator, b] =>
    if kindOf? operator = some .binary then binary s a operator b else whole s [a, operator, b]
  | ["(", a, b, ")"] => whole s [a, b]
  | ["!", a, b, c] => (outcome s [a, b, c]).map not
  | words => whole s words

end Test

/-- The status of a test: 0 when it holds, 1 when it does not, 2 when it is faulty. -/
def Exec.test (name : String) (words : List String) : Exec Unit := do
  match Test.outcome (← get) words with
  | .ok b => setStatus (if b then 0 else 1)
  | .error e =>
    complain (name ++ ": " ++ e)
    setStatus 2

end SchemaCompiler.Shell
