import SchemaCompiler.TypeScript.Parser.Signature

/-!
# Types

A type is read in layers: conditional, function, union, intersection, operators in front, brackets
behind a type, and simple types.
-/

namespace SchemaCompiler.TypeScript.Parser

/-! ## Names -/

def keyword? : String → Option Keyword
  | "any" => some .any
  | "bigint" => some .bigint
  | "boolean" => some .boolean
  | "intrinsic" => some .intrinsic
  | "never" => some .never
  | "null" => some .null
  | "number" => some .number
  | "object" => some .object
  | "string" => some .string
  | "symbol" => some .symbol
  | "undefined" => some .undefined
  | "unknown" => some .unknown
  | "void" => some .void
  | _ => none

/-- Further parts of a name with dots, each read by `part`. A dot at the end is a fault. -/
def qualifiers (part : Parser String) (head : String) : Parser EntityName := do
  let parts ← repeated do
    if ← eatPunct "." then
      settle
      if ← sees fun t => t.isName || t.isPunct "#" then do
        let name ← part
        pure (some name)
      else do
        report true
        pure none
    else pure none
  pure (parts.foldl .qualified (.ident head))

/-- A name with dots. -/
def entityName (part : Parser String) : Parser EntityName := do
  settle
  let head ← anyWord
  report (head == "void")
  qualifiers part head

/-! ## Property keys -/

variable (g : Grammar)

/-- The key that an expression gives: a fixed name only when it is a string. -/
def keyOf : Expr → PropertyKey
  | .string s => .fixed s
  | _ => .computed

/-- The context of a key. -/
def inKey {α : Type} (p : Parser α) : Parser α := within (fun c => { c with inKey := true }) p

/-- The key of a member of an object type; `literalKey` reads one that starts with a string or a
number. -/
def memberKey (literalKey : Parser Expr) : Parser PropertyKey := do
  if ← eatPunct "[" then
    let e ← g.assign
    expectPunct "]"
    pure (keyOf e)
  else
    inKey do
      match ← token with
      | .string _ => do
        let e ← literalKey
        pure (keyOf e)
      | .number _ => do
        let e ← literalKey
        pure (keyOf e)
      | .punct "#" => do
        let _ ← privateName
        report true
        pure .computed
      | _ => do
        let w ← anyWord
        pure (.fixed w)

/-! ## Object types -/

def memberEnd : Parser Unit := do
  if ← eatPunct "," then pure () else semicolon

/-- Whether `[name:` follows; a comma in place of the colon counts. -/
def atIndexSignature : Parser Bool :=
  isPunct "[" <&&> ahead do
    advance
    if ← isIdentifier then do
      advance
      isAnyPunct [":", ","]
    else pure false

def indexSignature (lo : Nat) : Parser Member := do
  expectPunct "["
  let _ ← anyWord
  settle
  if ← eatPunct "," then report true else expectPunct ":"
  let _ ← inType g.type
  expectPunct "]"
  let _ ← optionalAnnotation g
  memberEnd
  pure (.index (← spanFrom lo))

/-- `get key()` or `set key(value)`. -/
def accessor (literalKey : Parser Expr) : Parser Member := do
  settle
  if ← eatWord "get" then
    let _ ← memberKey g literalKey
    expectPunct "("
    expectPunct ")"
    let _ ← optionalAnnotation g
  else
    expectWord "set"
    let _ ← memberKey g literalKey
    if (← typeOnlyParameters g).isEmpty then fail "a parameter"
  memberEnd
  pure .other

def propertyOrMethod (literalKey : Parser Expr) (lo : Nat) (isReadonly : Bool) : Parser Member := do
  let key ← memberKey g literalKey
  let optional ← eatPunct "?"
  if ← isAnyPunct ["(", "<"] then
    if isReadonly then fail "a property"
    signature g
    memberEnd
    pure (.method (← spanFrom lo))
  else
    let declaredType ← optionalAnnotation g
    memberEnd
    pure (.property (← spanFrom lo) key optional declaredType)

/-- Whether what starts with `new` is a construct signature. -/
def atConstructSignature : Parser Bool :=
  isWord "new" <&&> ahead do
    advance
    isAnyPunct ["(", "<"]

def member (literalKey : Parser Expr) : Parser Member := do
  if ← isAnyPunct ["(", "<"] then
    signature g
    memberEnd
    return .other
  if ← atConstructSignature then
    advance
    signature g
    memberEnd
    return .other
  let lo ← place
  let isReadonly := (← modifier ["readonly"]).isSome
  if ← atIndexSignature then
    return ← indexSignature g lo
  if !isReadonly then
    if let some found ← attempt (accessor g literalKey) then
      return found
  propertyOrMethod g literalKey lo isReadonly

/-- Members in braces. -/
def members (literalKey : Parser Expr) : Parser (List Member) := do
  expectPunct "\x7b"
  upTo "\x7d" (member g literalKey)

/-- Whether `{ [K in` follows, with modifiers. -/
def atMappedType : Parser Bool :=
  ahead do
    advance
    if ← isAnyPunct ["+", "-"] then
      advance
      isWord "readonly"
    else
      let _ ← eatWord "readonly"
      expectPunct "["
      if ← isIdentifier then do
        advance
        isWord "in"
      else pure false

/-- A modifier that must stand behind a sign and may stand alone. -/
def mappedModifier (present : Parser Bool) : Parser Unit := do
  if ← isAnyPunct ["+", "-"] then
    advance
    if !(← present) then fail "a modifier"
  else
    let _ ← present

def mappedType : Parser Unit := do
  expectPunct "\x7b"
  mappedModifier (eatWord "readonly")
  expectPunct "["
  let _ ← anyWord
  expectWord "in"
  let _ ← g.type
  if ← eatWord "as" then
    let _ ← g.type
  expectPunct "]"
  mappedModifier (eatPunct "?")
  let _ ← optionalAnnotation g
  semicolon
  expectPunct "\x7d"

/-! ## Tuples, templates and imported types -/

/-- The name of an element of a tuple. -/
def tupleName : Parser Unit := do
  settle
  let _ ← eatPunct "..."
  let _ ← anyWord
  let _ ← eatPunct "?"
  expectPunct ":"

/-- How an element of a tuple takes part. -/
inductive TupleElement where
  | required
  | optional
  | rest
deriving DecidableEq

def tupleElement : Parser TupleElement := do
  settle
  let _ ← attempt tupleName
  if ← eatPunct "..." then
    let _ ← g.type
    pure .rest
  else
    let _ ← g.type
    if ← eatPunct "?" then pure .optional else pure .required

/-- Whether an element that is required stands behind an optional one. -/
def requiredAfterOptional (elements : List TupleElement) : Bool :=
  (elements.dropWhile (· ≠ .optional)).contains .required

def tupleType : Parser Unit := do
  expectPunct "["
  let elements ← commaUpTo "]" (tupleElement g)
  if requiredAfterOptional elements then fail "an optional element"

/-- A piece of a template, and whether it is the last one. A template without a tag must have a
meaning. -/
def templatePiece (tagged : Bool) : Parser (String × Bool) := do
  settle
  match ← token with
  | .piece raw sound => do
    advance
    if !tagged && !sound then fail "an escape"
    pure (raw, ← sees (·.isBacktick))
  | _ => fail "a template"

/-- A template whose substitutions are read by `inner`; what is written in it if there are none. -/
def template {α : Type} (tagged : Bool) (inner : Parser α) : Parser (Option String) := do
  settle
  advance
  let (raw, isLast) ← templatePiece tagged
  if !isLast then
    let _ ← repeated do
      expectPunct "$\x7b"
      let _ ← inner
      expectPunct "\x7d"
      let (_, isLast) ← templatePiece tagged
      pure (if isLast then none else some ())
  if !(← sees (·.isBacktick)) then fail "the end of a template"
  advance
  pure (if isLast then some raw else none)

/-- `import("module").name<A>`; the argument should be a string. -/
def importedType : Parser Unit := do
  expectWord "import"
  expectPunct "("
  report !(← sees (·.isString))
  let _ ← token
  advance
  expectPunct ")"
  if ← eatPunct "." then
    let _ ← entityName identifier
  if ← isPunct "<" then
    let _ ← readingAngles false (typeArguments g)

def typeofType : Parser Unit := do
  expectWord "typeof"
  if ← isWord "import" then importedType g
  else
    let _ ← entityName anyWord
  let _ ← optionalTypeArguments g ["<"]

/-! ## Simple types -/

/-- A name with its arguments. -/
def referenceType (lo : Nat) : Parser TypeExpr := do
  let modified ← strayModifier
  report modified
  let name ← entityName anyWord
  let arguments ← optionalTypeArguments g ["<", "<<"]
  pure (.reference (← spanFrom lo) name arguments)

def literalType (lo : Nat) (value : TypeLiteral) : Parser TypeExpr := do
  advance
  pure (.literal (← spanFrom lo) value)

/-- `this`, also as a statement on it. -/
def thisType (lo : Nat) : Parser TypeExpr := do
  expectWord "this"
  if ← sameLine <&&> isWord "is" then
    advance
    let _ ← g.type
  pure (.other (← spanFrom lo))

/-- `asserts this`, also with what is asserted of it. -/
def assertedThis (lo : Nat) : Parser TypeExpr := do
  expectWord "asserts"
  expectWord "this"
  if ← eatWord "is" then
    let _ ← g.type
  pure (.other (← spanFrom lo))

/-- The keywords that may be read as the name of a type. -/
def typeNameKeywords : List String := ["await", "break", "null", "void", "yield"]

def wordType (lo : Nat) (w : String) : Parser TypeExpr := do
  match w with
  | "true" => literalType lo (.boolean true)
  | "false" => literalType lo (.boolean false)
  | "this" => thisType g lo
  | "typeof" => do
    typeofType g
    pure (.other (← spanFrom lo))
  | "import" => do
    importedType g
    pure (.other (← spanFrom lo))
  | _ =>
    if Token.isKeyword w && !typeNameKeywords.contains w then fail "a type"
    else if ← pure (w == "asserts") <&&> follows (·.isWord "this") then assertedThis g lo
    else
      let qualified ← follows (·.isPunct ".")
      match keyword? w with
      | some word =>
        if qualified then referenceType g lo
        else do
          advance
          pure (.keyword (← spanFrom lo) word)
      | none => referenceType g lo

def punctType (literalKey : Parser Expr) (lo : Nat) (p : String) : Parser TypeExpr := do
  match p with
  | "-" => do
    advance
    match ← token with
    | .number x => literalType lo (.number (-x))
    | .bigint => literalType lo .other
    | _ => fail "a number"
  | "\x7b" =>
    if ← atMappedType then do
      mappedType g
      pure (.other (← spanFrom lo))
    else do
      let ms ← members g literalKey
      pure (.object (← spanFrom lo) ms)
  | "[" => do
    tupleType g
    pure (.other (← spanFrom lo))
  | "(" => do
    advance
    let inner ← g.type
    expectPunct ")"
    pure (.paren (← spanFrom lo) inner)
  | _ => fail "a type"

def simpleType (literalKey : Parser Expr) : Parser TypeExpr := do
  let lo ← place
  match ← token with
  | .string s => literalType lo (.string s)
  | .number x => literalType lo (.number x)
  | .bigint => literalType lo .other
  | .backtick => do
    let _ ← template false g.type
    pure (.literal (← spanFrom lo) .other)
  | .word w => wordType g lo w
  | .name _ => do
    let _ ← follows (·.isPunct ".")
    referenceType g lo
  | .punct p => punctType g literalKey lo p
  | _ => fail "a type"

/-! ## Operators -/

def bracketsFrom (lo : Nat) : Nat → TypeExpr → Parser TypeExpr
  | 0, t => pure t
  | fuel + 1, t => do
    if ← sameLine <&&> isPunct "[" then
      advance
      if ← eatPunct "]" then
        let span ← spanFrom lo
        bracketsFrom lo fuel (.array span t)
      else
        let _ ← g.type
        expectPunct "]"
        let span ← spanFrom lo
        bracketsFrom lo fuel (.other span)
    else pure t

/-- A simple type with `[]` and `[K]` behind it. -/
def bracketType (literalKey : Parser Expr) : Parser TypeExpr := do
  let lo ← place
  let t ← simpleType g literalKey
  bounded fun fuel => bracketsFrom g lo fuel t

/-- The bound of a name that `infer` introduces, read by `bound`. It is not one when a `?` follows
it, unless no conditional type can stand there. -/
def inferBound (bound : Parser TypeExpr) : Parser Unit := do
  expectWord "extends"
  let _ ← bound
  if ← pure !(← context).noConditional <&&> isPunct "?" then fail "the end of a bound"

def inferType (bound : Parser TypeExpr) (lo : Nat) : Parser TypeExpr := do
  expectWord "infer"
  let _ ← anyWord
  let _ ← attempt (inferBound bound)
  pure (.other (← spanFrom lo))

/-- A type with the words `keyof`, `unique`, `readonly` and `infer` in front. -/
def operatorFrom (literalKey : Parser Expr) (bound : Parser TypeExpr) : Nat → Parser TypeExpr
  | 0 => fail "a type"
  | fuel + 1 => do
    let lo ← place
    if ← isAnyWord ["keyof", "unique"] then
      advance
      let _ ← operatorFrom literalKey bound fuel
      pure (.other (← spanFrom lo))
    else if ← isWord "readonly" then
      advance
      let inner ← operatorFrom literalKey bound fuel
      pure (.readonly (← spanFrom lo) inner)
    else if ← isWord "infer" then inferType bound lo
    else bracketType g literalKey

/-- Types joined by an operator, which may also stand in front; one type alone stays itself. -/
def joinedType (mark : String) (build : Span → List TypeExpr → TypeExpr)
    (part : Parser TypeExpr) : Parser TypeExpr := do
  let lo ← place
  let _ ← eatPunct mark
  match ← separated mark part with
  | [only] => pure only
  | types => pure (build (← spanFrom lo) types)

/-! ## Function types -/

/-- Passes over the start of a parameter, if there is one. -/
def passParameterStart : Parser Bool := do
  let _ ← strayModifier
  if ← sees (·.isName) then do
    advance
    pure true
  else if ← isAnyPunct ["\x7b", "["] then pure (← tolerate g.pattern).isSome
  else pure false

/-- Whether what starts with a parenthesis is the parameters of a function type. -/
def atFunctionParameters : Parser Bool :=
  isPunct "(" <&&> ahead do
    advance
    if ← isAnyPunct [")", "..."] then pure true
    else if ← passParameterStart g then
      if ← isAnyPunct [":", ",", "?", "="] then pure true
      else eatPunct ")" <&&> isPunct "=>"
    else pure false

def functionType (lo : Nat) : Parser TypeExpr := do
  let _ ← optionalTypeParameters g .ofFunction
  let _ ← typeOnlyParameters g
  let _ ← resultBehind g "=>"
  pure (.other (← spanFrom lo))

/-- A type that is no conditional one. The bounds that nest in it take up one of the rounds. -/
def unconditionalFrom (literalKey : Parser Expr) : Nat → Parser TypeExpr
  | 0 => fail "a type"
  | fuel + 1 => do
    let lo ← place
    if ← isPunct "<" <||> atFunctionParameters g then functionType g lo
    else if ← (isWord "abstract" <&&> follows (·.isWord "new")) <||> isWord "new" then
      let _ ← eatWord "abstract"
      expectWord "new"
      functionType g lo
    else
      let bound := unconditionalFrom literalKey fuel
      let operand : Parser TypeExpr := bounded fun rounds => operatorFrom g literalKey bound rounds
      joinedType "|" .union (joinedType "&" .intersection operand)

def unconditionalType (literalKey : Parser Expr) : Parser TypeExpr :=
  bounded (unconditionalFrom g literalKey)

def typeExpr (literalKey : Parser Expr) : Parser TypeExpr :=
  within (fun c => { c with noConditional := false }) do
    let lo ← place
    let t ← unconditionalType g literalKey
    if ← sameLine <&&> isWord "extends" then
      advance
      let _ ← within (fun c => { c with noConditional := true }) (unconditionalType g literalKey)
      expectPunct "?"
      let _ ← g.type
      expectPunct ":"
      let _ ← g.type
      pure (.other (← spanFrom lo))
    else pure t

end SchemaCompiler.TypeScript.Parser
