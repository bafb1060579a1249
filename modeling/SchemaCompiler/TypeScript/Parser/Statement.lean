import SchemaCompiler.TypeScript.Parser.Declaration

/-!
# Statements

Statements other than declarations are read for where they end.
-/

namespace SchemaCompiler.TypeScript.Parser

variable (g : Grammar)

def condition : Parser Unit := do
  expectPunct "("
  let _ ← withIn g.expression
  expectPunct ")"

/-- A statement that stands alone, where no declaration may stand. -/
def body : Parser Unit := do
  let _ ← g.statement false

/-- The body of a loop. -/
def loopBody : Parser Unit :=
  within (fun c => { c with breaks := true, continues := true }) (body g)

/-! ## Loops -/

/-- What a `for` loop runs over: a counter, the names of members, or items. -/
inductive LoopHead where
  | counter
  | members
  | items
deriving DecidableEq

def atLoopSource : Parser Bool := isAnyWord ["of", "in"]

/-- What a loop runs over, from `of` or `in` on. -/
def loopSource : Parser LoopHead := do
  if ← eatWord "of" then
    let _ ← withIn g.assign
    pure .items
  else
    expectWord "in"
    let _ ← withIn g.expression
    pure .members

/-- The rest of a head with semicolons, from the first one on. -/
def counterHead : Parser LoopHead := do
  expectPunct ";"
  if !(← eatPunct ";") then
    let _ ← withIn g.expression
    expectPunct ";"
  if !(← isPunct ")") then
    let _ ← withIn g.expression
  pure .counter

/-- Whether the words for variables are followed by what a loop runs over, with no variable between
them. -/
def atNoVariable : Parser Bool :=
  atLoopSource <&&> ahead do
    advance
    let _ ← g.assign
    isPunct ")"

/-- A head that declares variables. A loop over something has one of them, without a value or an
annotation. -/
def variableHead (kind : VariableKind) : Parser LoopHead := do
  advance
  if ← atNoVariable g then
    report true
    loopSource g
  else
    let found ← declarators g kind true
    if ← atLoopSource then
      report (found.length != 1 || found.any fun v => v.annotated || v.declarator.init.isSome)
      loopSource g
    else counterHead g

/-- Whether an expression turns out to be the words in front of a resource. -/
def bindsResource : Expr → Bool
  | .name text => text == "using"
  | .await (.name text) => text == "using"
  | _ => false

/-- A head that starts with an expression. -/
def expressionHead : Parser LoopHead := do
  let init ← within (fun c => { c with allowsIn := false }) g.expression
  if ← pure (bindsResource init) <&&> (do pure !(← isWord "of")) <&&>
      follows (·.isAnyWord ["of", "in"]) then
    let _ ← boundName
    report (← isWord "in")
    loopSource g
  else if ← atLoopSource then
    accept init.assigned
    report ((← isWord "in") && init.isDestructured)
    loopSource g
  else counterHead g

/-- Whether `let` declares something when a token stands behind it. -/
def canFollowLet : Token → Bool
  | .word w => !Token.isKeyword w || ["let", "yield", "await"].contains w
  | .name _ => true
  | .punct p => p == "[" || p == "\x7b"
  | _ => false

/-- The word for variables at hand. -/
def variableKind : Parser (Option VariableKind) := do
  match ← token with
  | .word "let" => do
    if ← follows canFollowLet then pure (some .block) else pure none
  | .word w => pure (VariableKind.ofWord? w)
  | _ => pure none

def loopHead : Parser LoopHead := do
  match ← variableKind with
  | some kind => variableHead g kind
  | none => if ← isPunct ";" then counterHead g else expressionHead g

/-- A `for` loop. Only a loop over items can wait for them. -/
def forLoop : Parser Unit := do
  expectWord "for"
  let awaits ← eatWord "await"
  expectPunct "("
  let head ← within (fun c => { c with inLoopHead := true, loopAwaits := awaits }) (loopHead g)
  expectPunct ")"
  loopBody g
  if awaits && head ≠ .items then fail "of"

/-! ## Branches -/

def startsBranch (t : Token) : Bool := t.isAnyWord ["case", "default"]

def endsBranch (t : Token) : Bool := startsBranch t || closes "\x7d" t

/-- A branch of a `switch`, and whether it is the default. -/
def branch : Parser Bool := do
  let isDefault ← isWord "default"
  advance
  if !isDefault then
    let _ ← withIn g.expression
  expectPunct ":"
  let _ ← untilToken endsBranch (g.statement true)
  pure isDefault

def switchStatement : Parser Unit := do
  expectWord "switch"
  condition g
  expectPunct "\x7b"
  let defaults ← within (fun c => { c with breaks := true })
    (untilToken (!startsBranch ·) (branch g))
  if defaults.count true > 1 then fail "one default"
  expectPunct "\x7d"

def ifStatement : Parser Unit := do
  expectWord "if"
  condition g
  body g
  if ← eatWord "else" then body g

/-- What an exception is bound to, and what is done about it. -/
def catchClause : Parser Bool := do
  if ← eatWord "catch" then
    if ← eatPunct "(" then
      let _ ← g.pattern
      let _ ← optionalAnnotation g
      expectPunct ")"
    block g
    pure true
  else pure false

def finallyClause : Parser Bool := do
  if ← eatWord "finally" then
    block g
    pure true
  else pure false

def tryStatement : Parser Unit := do
  expectWord "try"
  block g
  settle
  let caught ← catchClause g
  let finished ← finallyClause g
  report (!caught && !finished)

/-- What belongs to `try` without it, which is a fault. It is passed over as far as it can be read. -/
def strayClauses : Parser Unit := do
  report true
  let _ ← tolerate (catchClause g)
  let _ ← tolerate (finallyClause g)

/-! ## Jumps -/

/-- `break`, or `continue`, with an optional label, which must stand around it. -/
def jump (isBreak : Bool) : Parser Unit := do
  let c ← context
  let allowed := if isBreak then c.breaks else c.continues
  advance
  if ← eatSemicolon then report !allowed
  else
    let label ← identifier
    semicolon
    report (!allowed || !c.labels.contains label)

def returnStatement : Parser Unit := do
  expectWord "return"
  if !(← atStatementEnd) then
    let _ ← withIn g.expression
  semicolon
  report !(← context).inFunction

def throwStatement : Parser Unit := do
  expectWord "throw"
  if ← lineBreak then fail "an expression"
  let _ ← withIn g.expression
  semicolon

/-! ## Statements that start with a keyword -/

/-- Reads a statement that starts with a keyword, and tells whether it is one. -/
def keywordStatement (w : String) : Parser Bool := do
  match w with
  | "if" => do ifStatement g; pure true
  | "for" => do forLoop g; pure true
  | "while" => do
    advance
    condition g
    loopBody g
    pure true
  | "do" => do
    advance
    loopBody g
    expectWord "while"
    condition g
    let _ ← eatSemicolon
    pure true
  | "continue" => do jump false; pure true
  | "break" => do jump true; pure true
  | "return" => do returnStatement g; pure true
  | "throw" => do throwStatement g; pure true
  | "switch" => do switchStatement g; pure true
  | "try" => do tryStatement g; pure true
  | "catch" => do strayClauses g; pure true
  | "finally" => do strayClauses g; pure true
  | "with" => do
    report true
    advance
    condition g
    body g
    pure true
  | "debugger" => do advance; semicolon; pure true
  | _ => pure false

/-! ## Declarations as statements -/

/-- Names that `using` binds to resources, if it stands in front of one on the same line. -/
def resourceStatement : Parser (Option Declaration) := do
  if ← isWord "using" <&&> followsOnLine (·.isReference) then
    let d ← resources g
    pure (some d)
  else pure none

/-- Resources that are waited for. In front of another use of `using`, the word `await` is passed
over. -/
def awaitedResources : Parser (Option Declaration) := do
  if ← isWord "await" <&&> follows (·.isWord "using") then
    advance
    resourceStatement g
  else pure none

/-- A declaration that its first words give away. Where none is allowed, functions and classes are
at fault and constants are not looked for. -/
def declarationStatement (allowed : Bool) (w : String) : Parser (Option Declaration) := do
  let lo ← place
  if ← atConstEnum then
    let d ← constEnum g lo
    return some d
  if w == "function" || w == "class" then
    report !allowed
    let d ← if w == "class" then classDeclaration g false else functionDeclaration g false
    return some d
  if ← atAsyncFunction then
    advance
    let d ← functionDeclaration g true
    return some d
  if allowed || w == "var" then
    if let some kind ← variableKind then
      let d ← variableStatement g kind
      return some d
  if allowed then
    if let some d ← awaitedResources g then
      return some d
    if let some d ← resourceStatement g then
      return some d
  if ← pure (["type", "interface", "enum"].contains w) <&&> followsOnLine (·.isName) then
    advance
    return ← introduced g lo w
  return none

/-! ## Any statement -/

/-- A statement behind its label. No function may stand there. -/
def labelled (label : String) : Parser Unit := do
  report ((← context).labels.contains label)
  within (fun c => { c with breaks := true, labels := label :: c.labels }) do
    if ← isWord "function" then
      report true
      let _ ← functionDeclaration g false
    else body g

/-- The end of a statement behind its expression. An operator in the place of the end is a fault, but
goes on with the expression. -/
def expressionEnd (e : Expr) : Parser Declaration := do
  if ← atInfixMark isBinaryMark then
    report true
    let _ ← withIn (joined g e)
  else semicolon
  pure .other

/-- A name as a statement, unless it is a label or a word that introduces something. -/
def nameStatement (lo : Nat) (name : String) : Parser Declaration := do
  if ← eatPunct ":" then
    labelled g name
    pure .other
  else if ← pure (name == "interface") <&&> lineBreak then
    report true
    let _ ← eatSemicolon
    pure .other
  else
    match ← declarationBehind g lo name with
    | some d => pure d
    | none => expressionEnd g (.name name)

def expressionStatement : Parser Declaration := do
  let lo ← place
  match ← withIn g.expression with
  | .name name => nameStatement g lo name
  | e => expressionEnd g e

/-- Whether `import` starts an expression here. -/
def atImportExpression : Parser Bool := isWord "import" <&&> follows (·.isAnyPunct ["(", "."])

/-- An expression that starts with `import`; what follows it need not be separated from it. -/
def importStatement : Parser Unit := do
  let _ ← g.expression
  let _ ← eatSemicolon

def wordStatement (allowed : Bool) (w : String) : Parser Declaration := do
  if ← atImportExpression then
    importStatement g
    return .other
  if w == "import" || w == "export" then fail "a statement"
  if let some d ← declarationStatement g allowed w then
    return d
  if ← keywordStatement g w then
    return .other
  expressionStatement g

/-- A statement, which may be a declaration only where one is `allowed`; what it declares is the
result. -/
def statement (allowed : Bool) : Parser Declaration :=
  within (fun c => { c with expectsColon := false }) do
    settle
    match ← token with
    | .punct ";" => do
      advance
      pure .other
    | .punct "\x7b" => do
      block g
      pure .other
    | .word w => wordStatement g allowed w
    | _ => expressionStatement g

/-- A statement of a module that starts with `await`: resources, or an expression that nothing need
separate from what follows it. -/
def awaitStatement : Parser Declaration := do
  let passed ← follows (·.isWord "using")
  match ← awaitedResources g with
  | some d => pure d
  | none => do
    let _ ← withIn do
      let e ← if passed then awaited (unary g) else awaitExpression (unary g)
      joined g e
    let _ ← eatSemicolon
    pure .other

end SchemaCompiler.TypeScript.Parser
