import SchemaCompiler.TypeScript.Parser.Arrow
import SchemaCompiler.TypeScript.Parser.Class
import SchemaCompiler.TypeScript.Parser.Element

/-!
# Expressions

Read in layers: assignment, conditional, binary operators by rank, unary operators, calls and
member access, and simple expressions.
-/

namespace SchemaCompiler.TypeScript.Parser

variable (g : Grammar)

/-! ## Lists and object literals -/

def listEntry : Parser ListEntry := do
  if ← isPunct "," then pure .hole else spreadItem g

def listLiteral : Parser Expr := do
  expectPunct "["
  let (entries, trailing) ← bracketed (listUpToNoting "]" (listEntry g))
  pure (.array entries (trailing && !(entries.getLast? matches some .hole)))

/-- Whether a property can go on with a token; a word alone may also be all of it. -/
def continuesProperty (isWord : Bool) : Token → Bool
  | .word _ => true
  | .name _ => true
  | .string _ => true
  | .number _ => true
  | .punct p =>
    ["(", "[", ":", ",", "?", "=", "*", "<"].contains p || (isWord && p == "\x7d")
  | _ => false

/-- A method behind `get`, `set` or `async`. -/
def wordMethod (w : String) : Parser ObjectEntry := do
  let starred ← do
    if w == "async" then eatPunct "*" else pure false
  let _ ← propertyKey g
  let _ ← match w with
    | "get" => accessorTail g true
    | "set" => accessorTail g false
    | _ => methodTail g true starred
  pure .method

/-- A property that a word starts, behind this word. -/
def wordProperty (w : String) (modified : Bool) : Parser ObjectEntry := do
  report (← eatPunct "?")
  if ← eatPunct "=" then
    let _ ← withIn g.assign
    pure (.defaulted w)
  else if ← isAnyPunct [",", "\x7d"] then pure (.shorthand w)
  else if ["get", "set", "async"].contains w then do
    report modified
    wordMethod g w
  else fail "a property"

def literalProperty : Parser ObjectEntry := do
  settle
  if ← eatPunct "..." then
    let e ← withIn g.assign
    return .spread e
  if ← eatPunct "*" then
    let _ ← propertyKey g
    let _ ← methodTail g false true
    return .method
  let modified ← strayModifier
  let head ← token
  let _ ← propertyKey g
  if !(← sees (continuesProperty head.isName)) then
    report true
    return .keyed .missing
  if ← eatPunct ":" then
    let e ← withIn g.assign
    return .keyed e
  if ← isAnyPunct ["(", "<"] then
    let _ ← methodTail g false false
    return .method
  match head with
  | .word w => wordProperty g w modified
  | .name w => wordProperty g w modified
  | _ => fail ":"

def objectLiteral : Parser Expr := do
  expectPunct "\x7b"
  let (entries, trailing) ← bracketed (commaUpToNoting "\x7d" (literalProperty g))
  pure (.object entries trailing)

/-! ## Templates -/

def templateExpression : Parser Expr := do
  match ← bracketed (template false (withIn g.expression)) with
  | some raw => pure (.template raw)
  | none => pure .atom

/-! ## Binary operators -/

/-- Rank of a binary operator; those that bind more closely rank higher. -/
def rank? : String → Option Nat
  | "??" => some 1
  | "||" => some 1
  | "&&" => some 2
  | "|" => some 3
  | "^" => some 4
  | "&" => some 5
  | "==" => some 6
  | "!=" => some 6
  | "===" => some 6
  | "!==" => some 6
  | "<" => some 7
  | ">" => some 7
  | "<=" => some 7
  | ">=" => some 7
  | "instanceof" => some 7
  | "in" => some 7
  | "<<" => some 8
  | ">>" => some 8
  | ">>>" => some 8
  | "+" => some 9
  | "-" => some 9
  | "*" => some 10
  | "/" => some 10
  | "%" => some 10
  | "**" => some 11
  | _ => none

/-- The rank of `as`, which is that of comparisons. -/
def castRank : Nat := 7

/-- Whether a mark is an operator between two operands. -/
def isBinaryMark (p : String) : Bool := (rank? p).isSome

/-- The binary operator at hand with its rank. -/
def binaryOperator : Parser (Option (String × Nat)) := do
  match ← token with
  | .punct p => pure ((rank? p).map (p, ·))
  | .word w => if w == "in" && !(← context).allowsIn then pure none else pure ((rank? w).map (w, ·))
  | _ => pure none

/-- A type behind a word. Angle brackets behind it, which were read as parts of the type, are joined
with what adjoins them. -/
def typeBehindWord : Parser Unit := do
  let _ ← inType do
    advance
    g.type
  if ← pure !(← context).inType <&&> isAnyPunct ["<", ">"] then joinAngles

/-- A type behind `as`, which is at hand; `const` stands for the literal type and hides what it is
behind. -/
def castTo (e : Expr) : Parser Expr := do
  if ← follows (·.isWord "const") then do
    advance
    advance
    pure .computed
  else do
    typeBehindWord g
    pure (.cast e)

/-- Whether `??` is mixed with `&&` or `||` without parentheses. -/
def mixesDefaults (op : String) (left right : Expr) : Bool :=
  if op == "??" then left.joinsBy ["&&", "||"] || right.joinsBy ["&&", "||"]
  else (op == "&&" || op == "||") && left.joinsBy ["??"]

/-- Whether an operand cannot be raised to a power as it stands. -/
def isBareOperand : Expr → Bool
  | .unary => true
  | .await _ => true
  | _ => false

/-- Goes on with operators that rank above `least`; `operand` reads what stands between them. -/
def binaryFrom (operand : Parser Expr) : Nat → Nat → Expr → Parser Expr
  | 0, _, left => pure left
  | fuel + 1, least, left => do
    if ← pure (decide (castRank > least)) <&&> sameLine <&&> isWord "as" then do
      let e ← castTo g left
      binaryFrom operand fuel least e
    else if ← sameLine <&&> isWord "satisfies" then do
      typeBehindWord g
      binaryFrom operand fuel least (.satisfies left)
    else
      match ← binaryOperator with
      | none => pure left
      | some (op, rank) =>
        if rank ≤ least then pure left
        else do
          advance
          if op == "**" && isBareOperand left then fail "parentheses"
          let first ← operand
          let right ← binaryFrom operand fuel (if op == "**" then rank - 1 else rank) first
          report (mixesDefaults op left right)
          binaryFrom operand fuel least (.binary op left right)

/-- Goes on with binary operators behind an operand. -/
def binaryAfter (operand : Parser Expr) (left : Expr) : Parser Expr :=
  bounded fun fuel => binaryFrom g operand fuel 0 left

/-- Operands with operators between them. In front of an operator the first one may be missing, which
is a fault. -/
def binaryWith (operand : Parser Expr) : Parser Expr := do
  match ← tolerate operand with
  | some left => if left.isArrow then pure left else binaryAfter g operand left
  | none => do
    if (← binaryOperator).isNone then fail "an expression"
    report true
    binaryAfter g operand .missing

/-! ## Assignments -/

def assignmentSigns : List String :=
  ["+=", "-=", "*=", "/=", "%=", "**=", "<<=", ">>=", ">>>=", "&=", "|=", "^=", "&&=", "||=", "??="]

/-- An assignment to an expression that has been read, if one follows. -/
def finishAssign (left : Expr) : Parser Expr := do
  let _ ← token
  if ← isPunct "=" then
    accept left.assigned
    advance
    let _ ← g.assign
    pure (.assign true left)
  else if ← isAnyPunct assignmentSigns then
    report !left.isSimpleTarget
    if !left.isAssignable then fail "an expression to assign to"
    advance
    let _ ← g.assign
    pure (.assign false left)
  else pure left

/-! ## Simple expressions -/

/-- An arrow function behind its parameters. An operator behind its braces is a fault, but joins it
with what follows. -/
def arrowFrom (operand : Parser Expr) (items : List ParenItem) (trailing mayBeArrow isAsync : Bool) :
    Parser Expr := do
  let braced ← arrowBehind g items trailing mayBeArrow isAsync
  if ← pure braced <&&> atInfixMark isBinaryMark then
    report true
    let e ← binaryAfter g operand .arrow
    report !(← atStatementEnd)
    pure e
  else pure .arrow

/-- Parentheses, or an arrow function that starts with them; `operand` reads a unary expression. -/
def parenOrArrow (operand : Parser Expr) (mayBeArrow isAsync : Bool) : Parser Expr := do
  let c ← context
  let (items, trailing) ←
    bracketed (withIn (parenItems g (parenItem g (binaryWith g operand) (finishAssign g))))
  if ← pure c.inConditional <&&> isPunct ":" then
    if (← attempt (arrowInBranch g items isAsync c.expectsColon)).isSome then return .arrow
  let typed ← do
    if ← pure !c.expectsColon <&&> isPunct ":" then do
      let found ← attempt (arrowResult g)
      pure found.isSome
    else pure false
  if ← pure (items.any (·.isParameter) || typed) <||> isPunct "=>" then
    arrowFrom g operand items trailing mayBeArrow isAsync
  else parenValue items isAsync

/-- What `async` in front of a name makes of it: the parameter of a function, the type of a cast, or
in the head of a loop what is run over. -/
def asyncName : Parser Expr := do
  let c ← context
  if ← pure c.inLoopHead <&&> isWord "of" <&&> (do pure !(← follows (·.isPunct "=>"))) then
    report !c.loopAwaits
    pure (.name "async")
  else
    let bound ← boundName
    if ← pure (bound == "as") <&&> (do pure !(← isPunct "=>")) then
      let _ ← inType g.type
      pure (.cast (.name "async"))
    else
      expectPunct "=>"
      arrowBody g true true
      pure .arrow

/-- A name, or an arrow function with a bare parameter. -/
def nameOrArrow (mayBeArrow : Bool) : Parser Expr := do
  let name ← identifier
  if ← pure (mayBeArrow && name == "async") <&&> sameLine <&&> isIdentifier then asyncName g
  else if ← pure mayBeArrow <&&> sameLine <&&> eatPunct "=>" then
    report (isProtectedName name)
    arrowBody g true false
    pure .arrow
  else pure (.name name)

/-- An expression that starts with `async`. -/
def asyncExpression (operand : Parser Expr) (mayBeArrow : Bool) : Parser Expr := do
  if ← followsOnLine (·.isWord "function") then
    advance
    functionExpression g true
    return .atom
  if ← pure mayBeArrow <&&> follows (·.isPunct "<") then
    let generic : Parser Unit := do
      expectWord "async"
      asyncArrow g
    if (← attempt generic).isSome then return .arrow
  if ← pure mayBeArrow <&&> followsOnLine (·.isPunct "(") then
    expectWord "async"
    return ← parenOrArrow g operand mayBeArrow true
  nameOrArrow g mayBeArrow

/-- Simple expressions that start with a word; `leftHand` reads a class to extend. -/
def wordExpression (leftHand operand : Parser Expr) (mayBeArrow : Bool) (w : String) :
    Parser Expr := do
  match w with
  | "function" => do
    functionExpression g false
    pure .atom
  | "class" => do
    classFrom g leftHand false false
    pure .atom
  | "this" => do advance; pure .atom
  | "null" => do advance; pure .literal
  | "true" => do advance; pure .literal
  | "false" => do advance; pure .literal
  | "async" => asyncExpression g operand mayBeArrow
  | "let" => nameOrArrow g mayBeArrow
  | _ => if Token.isReserved w then fail "an expression" else nameOrArrow g mayBeArrow

/-- A regular expression, with its slash at hand. It is none when what follows has been read. -/
def regexLiteral : Parser Expr := do
  rereadRegex
  match ← token with
  | .regex => do advance; pure .literal
  | _ => fail "an expression"

def punctExpression (operand : Parser Expr) (mayBeArrow : Bool) (p : String) : Parser Expr := do
  match p with
  | "(" => parenOrArrow g operand mayBeArrow false
  | "[" => listLiteral g
  | "\x7b" => objectLiteral g
  | "/" => regexLiteral
  | "/=" => regexLiteral
  | "#" => do
    advance
    let _ ← anyWord
    pure .computed
  | _ => fail "an expression"

def simpleExpression (leftHand operand : Parser Expr) : Parser Expr := do
  let start ← place
  let mayBeArrow := (← context).arrowStart == some start
  match ← token with
  | .word w => wordExpression g leftHand operand mayBeArrow w
  | .name _ => nameOrArrow g mayBeArrow
  | .string s => do advance; pure (.string s)
  | .number _ => do advance; pure .number
  | .bigint => do advance; pure .literal
  | .backtick => templateExpression g
  | .punct p => punctExpression g operand mayBeArrow p
  | _ => fail "an expression"

/-! ## Chains -/

/-- The steps of a chain behind an expression that is called or not. -/
def steps (calls : Bool) : Steps := if calls then .all else .members

/-- A member of `super`, or a call of it. -/
def superExpression (calls : Bool) : Parser Expr := do
  expectWord "super"
  passTypes g
  if ← pure calls <&&> isPunct "(" then
    arguments g
    chained g .all (.call .atom [])
  else if ← isPunct "[" then
    let _ ← bracketMember g .atom false
    chained g (steps calls) .superMember
  else
    expectPunct "."
    let _ ← anyWord
    chained g (steps calls) .superMember

/-- A call of `import`, or what stands behind a dot in its place. -/
def importCall (calls : Bool) : Parser Expr := do
  passTypes g
  if ← eatPunct "." then
    if (← anyWord) == "meta" then return ← chained g (steps calls) .computed
    arguments g
    chained g (steps calls) (.call .atom [])
  else
    if !calls then fail "meta"
    arguments g
    chained g .all (.call .atom [])

/-- `import.meta`, or a call of `import`, which `import.source` may stand for. -/
def importExpression (calls : Bool) : Parser Expr := do
  expectWord "import"
  if ← eatPunct "." then
    let word ← anyWord
    if word == "meta" then return ← chained g (steps calls) .computed
    if word != "source" then fail "meta"
  importCall g calls

/-- Whether nothing can be made from an expression because of the `?.` in front of its end. -/
def endsOptionally : Expr → Bool
  | .optionalLink _ starts => starts
  | _ => false

/-- `new.target`, behind `new`. -/
def newTarget : Parser Expr := do
  expectPunct "."
  expectWord "target"
  let c ← context
  report !(c.ownThis || c.inParameters || c.inClass)
  chained g .members .computed

/-- Type arguments that are followed by arguments. -/
def argumentTypes (marks : List String) : Parser (Option (List TypeExpr)) := do
  if ← isAnyPunct marks then
    attempt do
      let types ← typeArguments g
      if !(← isPunct "(") then fail "("
      pure types
  else pure none

/-- Simple expressions with member access behind them, and what `new` makes of them. -/
def constructedFrom (leftHand operand : Parser Expr) : Nat → Parser Expr
  | 0 => fail "an expression"
  | fuel + 1 => do
    settle
    if ← eatWord "new" then
      if ← isPunct "." then newTarget g
      else
        let callee ← constructedFrom leftHand operand fuel
        if callee.isArrow then return callee
        if endsOptionally callee then fail "a class"
        let _ ← argumentTypes g ["<"]
        if ← isPunct "(" then
          arguments g
          chained g .members (.construct true)
        else pure (.construct false)
    else if ← isWord "super" then superExpression g false
    else if ← isWord "import" then importExpression g false
    else
      let e ← simpleExpression g leftHand operand
      if e.isArrow then pure e else chained g .members e

def memberExpressionWith (leftHand operand : Parser Expr) : Parser Expr :=
  readingAngles true (bounded (constructedFrom g leftHand operand))

/-- Elements in angle brackets, where they are read. -/
def atElement : Parser Bool :=
  (do pure (← context).jsx) <&&>
    (sees (·.isTagStart) <||> (isPunct "<" <&&> (do pure !(← follows (·.isPunct "!")))))

/-- Expressions that can stand left of an assignment: simple ones with access and calls. -/
def leftHandFrom (operand : Parser Expr) : Nat → Parser Expr
  | 0 => fail "an expression"
  | fuel + 1 => do
    settle
    if ← atElement then
      g.element
      return .atom
    if ← isWord "super" then return ← superExpression g true
    if ← isWord "import" then return ← importExpression g true
    let head ← memberExpressionWith g (leftHandFrom operand fuel) operand
    if head.isArrow then return head
    let types ← argumentTypes g ["<", "<<"]
    if head matches .construct false then return head
    if ← isPunct "(" then
      arguments g
      chained g .all (callOf head false (types.getD []))
    else pure head

def leftHandWith (operand : Parser Expr) : Parser Expr := bounded (leftHandFrom g operand)

/-! ## Unary operators -/

def unaryWords : List String := ["delete", "void", "typeof"]

def unarySigns : List String := ["+", "-", "~", "!"]

/-- Whether something can be deleted, which is a member. -/
def isDeletable (e : Expr) : Bool :=
  match e.stripParens with
  | .member _ _ => true
  | .index _ => true
  | .optionalLink isMember _ => isMember
  | _ => false

/-- What `await` waits for, behind this word. -/
def awaited (operand : Parser Expr) : Parser Expr := do
  if ← isPunct "*" then fail "an expression"
  let c ← context
  if ← pure !c.isAsync <&&> (isAnyPunct [")", "]", ","] <||> atStatementEnd) then
    report true
    pure (.name "await")
  else
    report (c.inFunction && !c.isAsync)
    report (c.inParameters && !c.inFunction)
    let e ← operand
    pure (.await e)

/-- `await` with its operand. -/
def awaitExpression (operand : Parser Expr) : Parser Expr := do
  expectWord "await"
  awaited operand

/-- A type in angle brackets in front of an expression. -/
def assertionExpression (operand : Parser Expr) : Parser Expr := do
  expectPunct "<"
  if ← eatWord "const" then
    expectPunct ">"
    let _ ← operand
    pure .computed
  else
    let _ ← inType g.type
    expectPunct ">"
    let e ← operand
    pure (.assertion e)

/-- An expression with `++` or `--` behind it. -/
def stepped (e : Expr) : Parser Expr := do
  if ← pure !e.isArrow <&&> sameLine <&&> isAnyPunct ["++", "--"] then
    report !e.isSimpleTarget
    advance
    pure .computed
  else pure e

/-- A sign or word with its operand. A missing operand is a fault. -/
def signedExpression (operand : Parser Expr) : Parser Expr := do
  let deletes ← isWord "delete"
  advance
  match ← tolerate operand with
  | some e => report (deletes && !isDeletable e)
  | none => report true
  pure .unary

def unaryFrom : Nat → Parser Expr
  | 0 => fail "an expression"
  | fuel + 1 => do
    let operand := unaryFrom fuel
    settle
    if ← pure !(← context).jsx <&&> isPunct "<" then assertionExpression g operand
    else if ← isAnyPunct ["++", "--"] then
      advance
      let e ← operand
      report !e.isSimpleTarget
      pure .computed
    else if ← isAnyWord unaryWords <||> isAnyPunct unarySigns then signedExpression operand
    else if ← isWord "await" then awaitExpression operand
    else
      let e ← leftHandWith g operand
      stepped e

def unary : Parser Expr := bounded (unaryFrom g)

/-- A class to extend, or what else can stand left of an assignment. -/
def leftHand : Parser Expr := leftHandWith g (unary g)

/-- A key of a member that starts with a string or number, with what may follow it. -/
def literalKey : Parser Expr := memberExpressionWith g (leftHand g) (unary g)

/-! ## Conditionals and assignments -/

/-- Goes on with binary operators behind an expression. -/
def joined (left : Expr) : Parser Expr := binaryAfter g (unary g) left

def binary : Parser Expr := binaryWith g (unary g)

def conditional : Parser Expr := do
  settle
  let test ← binary g
  if test.isArrow then pure test
  else if ← eatPunct "?" then branches g
  else pure test

/-- `yield` and what it gives away. -/
def yieldExpression : Parser Expr := do
  expectWord "yield"
  let c ← context
  if c.inParameters && !c.inFunction then fail "an expression without yield"
  let s ← state
  let goesOn := s.token.isAnyPunct ["*", "/", "/="] || s.token.startsExpression
  if !s.endsStatement && goesOn then
    let _ ← eatPunct "*"
    let _ ← g.assign
  pure .computed

/-- Whether an arrow function may start with a token. -/
def mayStartArrow : Token → Bool
  | .word w => !Token.isKeyword w || w == "yield"
  | .name _ => true
  | .punct p => p == "("
  | _ => false

/-- Whether an expression can be the left side of an assignment by its form alone. -/
def isOperation : Expr → Bool
  | .conditional _ _ => true
  | .binary _ _ _ => true
  | .unary => true
  | .arrow => true
  | _ => false

def assignBase : Parser Expr := do
  if ← pure (← context).isGenerator <&&> isWord "yield" then return ← yieldExpression g
  let start ← place
  let arrowStart := if mayStartArrow (← token) then some start else none
  let e ← within (fun c => { c with arrowStart := arrowStart }) (conditional g)
  if isOperation e then pure e else finishAssign g e

/-- Leaves the tag that the bracket at hand has opened. -/
def leaveTag : Parser Unit := fun _ s =>
  match s.reader.around.enclosures with
  | .openingTag :: .element :: around => .read () (s.withEnclosures around)
  | _ => .read () s

/-- An arrow function with type parameters. -/
def genericArrow : Parser Unit :=
  within (fun c => { c with expectsColon := false }) do
    typeParameters g .ofFunction
    if !(← assignBase g).isArrow then fail "an arrow function"

def assign : Parser Expr := do
  if ← sees (·.isTagStart) then
    if let some e ← attempt (assignBase g) then return e
    leaveTag
  if ← sees fun t => t.isTagStart || t.isPunct "<" then
    if ← follows fun t => t.isName || t.isTagName then
      if (← attempt (genericArrow g)).isSome then return .arrow
  assignBase g

end SchemaCompiler.TypeScript.Parser
