import SchemaCompiler.Decimal.Shortest
import SchemaCompiler.TypeScript.Parser.Expression

/-!
# Declarations

Variables, types, enumerations, functions, classes and namespaces. The words that introduce a type
are no keywords, so a declaration is recognised by what stands behind its word.
-/

namespace SchemaCompiler.TypeScript.Parser

variable (g : Grammar)

/-! ## Variables -/

/-- Which word declares a variable. -/
inductive VariableKind where
  | var
  | block
  | constant
deriving DecidableEq

def VariableKind.ofWord? : String → Option VariableKind
  | "var" => some .var
  | "let" => some .block
  | "const" => some .constant
  | _ => none

/-- A declared variable, and whether it is annotated with a type. -/
structure Variable where
  declarator : Declarator
  annotated : Bool

/-- What a variable binds, with its annotation. -/
def annotatedPattern (kind : VariableKind) : Parser (Pattern × Bool) := do
  if ← pure (kind != .var) <&&> isWord "let" then fail "another name"
  match ← g.pattern with
  | .name name _ => do
    let _ ← eatPunct "!"
    let declaredType ← optionalAnnotation g
    pure (.name name declaredType, declaredType.isSome)
  | p => do
    let declaredType ← optionalAnnotation g
    pure (p, declaredType.isSome)

/-- A variable without a value. A constant and a pattern need one, unless they are ambient. -/
def withoutValue (kind : VariableKind) (p : Pattern) : Parser Unit := do
  if (← context).ambient then pure ()
  else if kind = .constant then report true
  else if !(p matches .name _ _) then fail "="

/-- One declared variable; in the head of a loop it may be followed by what the loop runs over. -/
def declarator (kind : VariableKind) (inHead : Bool) : Parser Variable := do
  let lo ← place
  let (p, annotated) ← annotatedPattern g kind
  let init ← do
    if ← pure inHead <&&> isAnyWord ["in", "of"] then pure none
    else if ← eatPunct "=" then do
      let e ← g.assign
      pure (some e)
    else do
      withoutValue kind p
      pure none
  pure ⟨⟨← spanFrom lo, p, init⟩, annotated⟩

/-- Variables with commas between them. The statement must not end where one is expected. -/
def declaratorsFrom (kind : VariableKind) (inHead : Bool) : Nat → Parser (List Variable)
  | 0 => pure []
  | fuel + 1 => do
    if ← isPunct ";" <||> sees (·.isEnd) then
      report true
      pure []
    else
      let first ← declarator g kind inHead
      if ← eatPunct "," then
        let more ← declaratorsFrom kind inHead fuel
        pure (first :: more)
      else pure [first]

/-- Variables behind the word that declares them. In the head of a loop, the operator `in` may end the
value of a `var`. -/
def declarators (kind : VariableKind) (inHead : Bool) : Parser (List Variable) :=
  within (fun c => { c with allowsIn := c.allowsIn || !inHead || kind != .var })
    (bounded (declaratorsFrom g kind inHead))

/-- Passes over what keeps a statement from ending, first as far as it is an expression. -/
def passToEnd : Parser Unit := do
  let _ ← tolerate g.expression
  let _ ← repeated do
    if ← eatSemicolon then pure none
    else do
      advance
      if ← sees (· matches .broken) then pure none else pure (some ())

/-- Variables from their word on. -/
def variableStatement (kind : VariableKind) : Parser Declaration := do
  advance
  let found ← declarators g kind false
  if !(← eatSemicolon) then
    report true
    passToEnd g
  pure (.bindings (found.map (·.declarator)))

/-- Names that `using` binds to resources, from this word on. -/
def resources : Parser Declaration := do
  expectWord "using"
  let found ← bounded (declaratorsFrom g .var false)
  report (found.any fun v => !(v.declarator.pattern matches .name _ _) || v.declarator.init.isNone)
  pure .other

/-! ## Types -/

/-- A second `extends`, which is passed over together with all up to the members. -/
def passExtends : Parser Unit := do
  if ← isWord "extends" then
    report true
    let _ ← untilToken (fun t => t.isPunct "\x7b" || t.isEnd) advance

/-- An interface behind its word; `lo` is where its declaration starts. -/
def interfaceBehind (lo : Nat) : Parser Interface := do
  let name ← anyWord
  report (isBuiltInTypeName name)
  let generic ← optionalTypeParameters g .ofType
  let parents ← do
    if ← eatWord "extends" then heritageList g else pure []
  passExtends
  settle
  let ms ← inType (members g (literalKey g))
  pure ⟨← spanFrom lo, name, generic, parents, ms⟩

def aliasBehind (lo : Nat) : Parser Alias := do
  let name ← anyWord
  let generic ← optionalTypeParameters g .ofType
  let body ← inType do
    expectPunct "="
    g.type
  semicolon
  pure ⟨← spanFrom lo, name, generic, body⟩

/-! ## Enumerations -/

/-- The name of a member: a word or a string. A number or a computed name is a fault. -/
def enumMemberName : Parser String := do
  match ← token with
  | .string s => do
    advance
    pure s
  | .number x => do
    report true
    advance
    pure (FloatFormat.positional.write x)
  | .punct "[" => do
    report true
    advance
    let _ ← g.expression
    expectPunct "]"
    pure ""
  | _ => anyWord

/-- A member with the comma behind it. A missing comma is a fault; behind a member without a value
whatever stands in its place is taken for it. -/
def enumMember : Parser EnumMember := do
  let lo ← place
  let name ← enumMemberName g
  if ← eatPunct "=" then
    let e ← g.assign
    let span ← spanFrom lo
    if !(← eatPunct ",") then
      report !(← isPunct "\x7d")
    pure ⟨span, name, some e⟩
  else
    let span ← spanFrom lo
    if !(← eatPunct ",") then
      if !(← isPunct "\x7d") then
        report true
        advance
    pure ⟨span, name, none⟩

def enumBehind (lo : Nat) (isConst : Bool) : Parser Enum := do
  let name ← anyWord
  expectPunct "\x7b"
  let ms ← upTo "\x7d" (enumMember g)
  pure ⟨← spanFrom lo, name, isConst, ms⟩

def atConstEnum : Parser Bool := isWord "const" <&&> follows (·.isWord "enum")

/-- An enumeration from `const enum` on. -/
def constEnum (lo : Nat) : Parser Declaration := do
  expectWord "const"
  expectWord "enum"
  let e ← enumBehind g lo true
  pure (.enum e)

/-! ## Namespaces -/

/-- The items of a namespace, which may be imports and exports. -/
def itemsInBraces : Parser Unit := do
  let _ ← inBraces g.item

def namespaceBehind : Parser Unit := do
  let _ ← separated "." anyWord
  itemsInBraces g

/-- What stands for another module or the global scope, from its name on; its items may be left
out. -/
def externalModule : Parser Unit := do
  advance
  if ← isPunct "\x7b" then itemsInBraces g else semicolon

/-! ## Functions and classes -/

def functionDeclaration (isAsync : Bool) : Parser Declaration := do
  match ← functionFrom g isAsync true with
  | (some name, _) => pure (.function name)
  | _ => pure .other

def classDeclaration (isAbstract : Bool) : Parser Declaration := do
  classFrom g (leftHand g) isAbstract true
  pure .other

/-! ## Words that introduce a declaration -/

/-- What a word introduces, behind this word; `lo` is where the declaration starts. -/
def introduced (lo : Nat) (w : String) : Parser (Option Declaration) := do
  match w with
  | "abstract" => do
    let d ← classDeclaration g true
    pure (some d)
  | "enum" => do
    let e ← enumBehind g lo false
    pure (some (.enum e))
  | "interface" => do
    let i ← interfaceBehind g lo
    pure (some (.interface i))
  | "type" => do
    let a ← aliasBehind g lo
    pure (some (.alias a))
  | "namespace" => do
    namespaceBehind g
    pure (some .other)
  | "module" => do
    if ← sees (·.isString) then externalModule g else namespaceBehind g
    pure (some .other)
  | _ => pure none

def introducers : List String := ["abstract", "enum", "interface", "type", "namespace", "module"]

/-- A declaration that the word at hand introduces, where nothing else can stand. -/
def introducedHere (lo : Nat) : Parser (Option Declaration) := do
  match ← token with
  | .word w => do
    if !introducers.contains w || (w == "module" && (← lineBreak)) then pure none
    else do
      advance
      introduced g lo w
  | _ => pure none

/-- Whether the token at hand makes a declaration of the word before it, which may also have been
the name of something. -/
def makesDeclaration (w : String) : Parser Bool := do
  let s ← state
  let named := s.token.isReference
  pure <| match w with
    | "abstract" => !s.lineBreak && s.token.isWord "class"
    | "enum" => named
    | "interface" => named
    | "namespace" => named
    | "type" => !s.lineBreak && named
    | "module" => !s.lineBreak && (named || s.token.isString)
    | _ => false

/-- What stands behind `declare`, if it is a declaration. What is ambient already is not declared
so again, except in a file of declarations. -/
def ambientDeclaration (lo : Nat) : Parser (Option Declaration) := do
  let c ← context
  report (c.ambient && !c.declarationFile)
  within (fun c => { c with ambient := true }) do
    if ← atConstEnum then
      let d ← constEnum g lo
      return some d
    match ← token with
    | .word "function" => do
      let d ← functionDeclaration g false
      pure (some d)
    | .word "class" => do
      let d ← classDeclaration g false
      pure (some d)
    | .word "global" => do
      externalModule g
      pure (some .other)
    | .word w =>
      match VariableKind.ofWord? w with
      | some kind => do
        let d ← variableStatement g kind
        pure (some d)
      | none => introducedHere g lo
    | _ => pure none

/-- The words that must not stand in front of an interface. -/
def interfaceWords : List String := ["abstract", "public", "static"]

/-- A declaration behind a word that stands alone so far, if it is one. -/
def declarationBehind (lo : Nat) (w : String) : Parser (Option Declaration) := do
  match w with
  | "declare" => ambientDeclaration g lo
  | "global" => do
    if ← isPunct "\x7b" then do
      itemsInBraces g
      pure (some .other)
    else pure none
  | _ => do
    if ← pure (interfaceWords.contains w) <&&> eatWord "interface" then
      report true
      introduced g lo "interface"
    else if ← makesDeclaration w then introduced g lo w
    else pure none

end SchemaCompiler.TypeScript.Parser
