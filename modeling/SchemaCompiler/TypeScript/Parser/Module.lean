import SchemaCompiler.TypeScript.Parser.Statement

/-!
# Modules

The statements of a file. `parseModule` reads a whole text.
-/

namespace SchemaCompiler.TypeScript.Parser

/-!
## Imports, and names across modules

Lists in braces look alike in imports and exports; both are read by `listedNames`.
-/

variable (g : Grammar)

/-! ### Lists of names -/

/-- A name of an import or export: any word, or a string. -/
def moduleName : Parser String := do
  match ← token with
  | .string s => do
    advance
    pure s
  | _ => anyWord

/-- A name in a list of imports or exports. -/
structure ListedName where
  name : String
  isString : Bool := false
  renamed : Option String := none

/-- What a name is known as on the other side of the list. -/
def ListedName.target (n : ListedName) : String := n.renamed.getD n.name

/-- How the names that stand behind `as` are read. -/
structure Renaming where
  /-- In general. -/
  target : Parser String
  /-- Where the word `type` is followed by `as`. -/
  targetOfType : Parser String

def renamed (r : Renaming) : Parser (Option String) := do
  if ← eatWord "as" then do
    let target ← r.target
    pure (some target)
  else pure none

/-- What stands behind `type as`: the words may be a modifier or names. Where the whole list holds
types, a modifier is a fault. -/
def behindTypeAs (r : Renaming) (typesOnly : Bool) : Parser ListedName := do
  if !(← sees (·.isName)) then
    report typesOnly
    pure { name := "as" }
  else
    let second ← r.targetOfType
    if ← pure (second == "as") <&&> sees (·.isName) then
      report typesOnly
      let third ← r.targetOfType
      pure { name := "as", renamed := some third }
    else pure { name := "type", renamed := some second }

/-- `name`, `name as other`, each also after the modifier `type`. -/
def listedName (r : Renaming) (typesOnly : Bool) : Parser ListedName := do
  let isString ← sees (·.isString)
  let name ← moduleName
  if ← pure (!isString && name == "type") <&&> sees (·.isName) then
    if ← eatWord "as" then behindTypeAs r typesOnly
    else
      report typesOnly
      let name ← anyWord
      pure { name := name, renamed := ← renamed r }
  else pure { name := name, isString := isString, renamed := ← renamed r }

def listedNames (r : Renaming) (typesOnly : Bool) : Parser (List ListedName) := do
  expectPunct "\x7b"
  listUpTo "\x7d" (listedName r typesOnly)

/-! ### Modules named by strings -/

def sourceString : Parser String := do
  match ← token with
  | .string s => do
    advance
    pure s
  | _ => fail "a module"

/-- Attributes of an import on the same line, which are passed over. -/
def attributes : Parser Unit := do
  settle
  if ← sameLine <&&> isAnyWord ["with", "assert"] then
    advance
    let _ ← objectLiteral g

/-- `from "module"` -/
def fromClause : Parser String := do
  expectWord "from"
  let source ← sourceString
  attributes g
  pure source

/-! ### Imports -/

/-- An imported name, which must be renamed when it is a string. -/
def importSpecifier (typesOnly : Bool) : Parser ImportSpecifier := do
  let n ← listedName ⟨boundName, boundName⟩ typesOnly
  if n.renamed.isNone && n.isString then fail "as"
  pure ⟨n.target, .named n.name⟩

def namedImports (typesOnly : Bool) : Parser (List ImportSpecifier) := do
  expectPunct "\x7b"
  listUpTo "\x7d" (importSpecifier typesOnly)

def wholeImport : Parser ImportSpecifier := do
  expectPunct "*"
  expectWord "as"
  let name ← boundName
  pure ⟨name, .wholeModule⟩

/-- What is imported besides a default, up to the end of the statement. -/
def importBindings (typesOnly : Bool) (first : List ImportSpecifier) : Parser Item := do
  let more ← do
    if ← isPunct "*" then do
      let whole ← wholeImport
      pure [whole]
    else if ← isPunct "\x7b" then namedImports typesOnly
    else pure []
  let source ← fromClause g
  semicolon
  pure (.imports (first ++ more) source)

/-- The right side of `import name = …`. -/
def importEquals : Parser Item := do
  expectPunct "="
  if ← isWord "require" <&&> follows (·.isPunct "(") then
    advance
    advance
    let _ ← sourceString
    expectPunct ")"
  else
    let _ ← entityName identifier
  semicolon
  pure .other

/-- Whether what is imported is listed behind the token at hand. -/
def atBindings : Parser Bool := isAnyPunct ["\x7b", "*"]

/-- The rest of an import behind the name of its default. -/
def behindDefault (typesOnly : Bool) (name : String) : Parser Item := do
  if !(← isWord "from") then expectPunct ","
  importBindings g typesOnly [⟨name, .default⟩]

/-- The words for when a module is evaluated: not at all, or at its first use. -/
def phaseWords : List String := ["source", "defer"]

/-- Whether the word before the token at hand names no default, but a phase. -/
def namesPhase : Parser Bool :=
  (isIdentifier <&&> (do pure !(← isWord "from"))) <||> follows (·.isWord "from")

/-- An import behind its first name and a modifier `type`, which may be followed by a phase. -/
def phasedImport (typesOnly : Bool) (name : String) : Parser Item := do
  if ← isPunct "=" then importEquals
  else if !phaseWords.contains name then behindDefault g typesOnly name
  else if ← atBindings then importBindings g typesOnly []
  else if ← namesPhase then do
    let name ← boundName
    behindDefault g typesOnly name
  else behindDefault g typesOnly name

/-- An import that starts with a name, which may be the modifier `type`. -/
def namedImport : Parser Item := do
  let name ← boundName
  if name != "type" then phasedImport g false name
  else if ← atBindings then importBindings g true []
  else if !(← isIdentifier) then phasedImport g false name
  else if ← (do pure !(← isWord "from")) <||> follows (·.isWord "from") then do
    let name ← boundName
    phasedImport g true name
  else if ← follows (·.isPunct "=") then do
    let name ← anyWord
    phasedImport g true name
  else phasedImport g false name

def importItem : Parser Item := do
  expectWord "import"
  settle
  match ← token with
  | .string source => do
    advance
    attributes g
    semicolon
    pure (.imports [] source)
  | _ => if ← isIdentifier then namedImport g else importBindings g false []

/-! ## Exports -/

/-! ### Lists -/

/-- The words that name nothing in a module, so that only another module can export them. -/
def unnameable : List String :=
  ["break", "case", "catch", "class", "const", "continue", "debugger", "default", "delete", "do",
   "else", "enum", "export", "extends", "false", "finally", "for", "function", "if", "import", "in",
   "instanceof", "new", "null", "package", "return", "super", "switch", "this", "throw", "true",
   "try", "typeof", "var", "void", "while", "with"]

/-- Whether a name cannot be exported from the module that lists it. -/
def ListedName.isForeign (n : ListedName) : Bool := n.isString || unnameable.contains n.name

def exportSpecifiers (names : List ListedName) : List ExportSpecifier :=
  names.map fun n => ⟨n.name, n.target⟩

/-- A list in braces, from this module or another one. -/
def exportList (typesOnly : Bool) : Parser Item := do
  let names ← listedNames ⟨moduleName, anyWord⟩ typesOnly
  let source ← do
    if ← isWord "from" then do
      let source ← fromClause g
      semicolon
      pure (some source)
    else do
      report (names.any (·.isForeign))
      let _ ← eatSemicolon
      pure none
  pure (.exportNamed (exportSpecifiers names) source)

/-- `export *`, with the star at hand. A namespace export binds no name that is looked up. -/
def exportStar : Parser Item := do
  expectPunct "*"
  let named ← eatWord "as"
  if named then
    let _ ← moduleName
  let source ← fromClause g
  semicolon
  pure (if named then .exportNamed [] (some source) else .exportAll source)

/-! ### Defaults -/

def exportDefault : Parser Item := do
  if ← isWord "abstract" <&&> followsOnLine (·.isWord "class") then
    advance
    classFrom g (leftHand g) true false
    return .other
  if ← isWord "abstract" <&&> follows (·.isWord "interface") then
    report true
    advance
  let lo ← place
  if ← eatWord "interface" then
    let i ← interfaceBehind g lo
    return .exportDefaultInterface i
  if ← isWord "class" then
    classFrom g (leftHand g) false false
    return .other
  let isAsync ← atAsyncFunction
  if isAsync then advance
  if ← isWord "function" then
    let _ ← functionFrom g isAsync false
    return .other
  let e ← withIn g.assign
  semicolon
  return .exportDefaultExpr e

/-! ### Declarations -/

/-- A declaration that is exported, if one starts here and it is introduced by a word that might be
a name. What is at fault in it is let pass. -/
def introducedQuietly (lo : Nat) : Parser (Option Declaration) := do
  let found ← attempt do
    match ← introducedHere g lo with
    | some d => pure d
    | none => fail "a declaration"
  pure found

/-- A declaration that is exported and starts with a keyword. -/
def exportedDeclaration (lo : Nat) : Parser (Option Declaration) := do
  if ← atConstEnum then
    let d ← constEnum g lo
    return some d
  if ← isWord "class" then
    let d ← classDeclaration g false
    return some d
  let isAsync ← atAsyncFunction
  if isAsync then advance
  if ← isWord "function" then
    let d ← functionDeclaration g isAsync
    return some d
  if let some kind ← variableKind then
    let d ← variableStatement g kind
    return some d
  return none

/-- `export import name = …`, behind `import`. -/
def exportedImport : Parser Item := do
  if ← isWord "type" <&&> follows (·.isReference) then advance
  let _ ← anyWord
  importEquals

/-- Exports that are written like assignments or imports, if one starts here. -/
def exportedAlias : Parser (Option Item) := do
  if ← eatWord "import" then
    let i ← exportedImport
    return some i
  if ← eatPunct "=" then
    let _ ← g.expression
    semicolon
    return some .other
  if ← eatWord "as" then
    expectWord "namespace"
    let _ ← identifier
    semicolon
    return some .other
  return none

/-! ### Any export -/

def exportItem : Parser Item := do
  expectWord "export"
  let lo ← place
  if ← eatWord "declare" then
    if let some d ← ambientDeclaration g lo then
      return .exportDeclaration d
  if let some d ← introducedQuietly g (← place) then
    return .exportDeclaration d
  if let some i ← exportedAlias g then
    return i
  let typesOnly ← eatWord "type"
  if ← pure !typesOnly <&&> eatWord "default" then
    return ← exportDefault g
  if !typesOnly then
    if let some d ← exportedDeclaration g (← place) then
      return .exportDeclaration d
  if ← isPunct "*" then exportStar g else exportList g typesOnly

end SchemaCompiler.TypeScript.Parser

namespace SchemaCompiler.TypeScript

namespace Parser

/-! ## Statements of a module -/

def item (g : Grammar) : Parser Item := do
  if ← isWord "import" <&&> (do pure !(← atImportExpression)) then importItem g
  else if ← isWord "export" then exportItem g
  else do
    let d ← if ← isWord "await" then awaitStatement g else statement g true
    pure (.declaration d)

def placedItem (g : Grammar) : Parser Statement := do
  let lo ← place
  let i ← item g
  pure ⟨← spanFrom lo, i⟩

/-! ## The whole grammar -/

/-- A grammar that reads nothing: constructs may not nest any further. -/
def exhausted : Grammar where
  type := fail "less nesting"
  assign := fail "less nesting"
  pattern := fail "less nesting"
  statement := fun _ => fail "less nesting"
  item := fail "less nesting"
  element := fail "less nesting"

/-- Parsers for constructs that nest at most `depth` times. -/
def grammar : Nat → Grammar
  | 0 => exhausted
  | depth + 1 =>
    { type := fun c s => typeExpr (grammar depth) (literalKey (grammar depth)) c s
      assign := fun c s => assign (grammar depth) c s
      pattern := fun c s => pattern (grammar depth) c s
      statement := fun allowed c s => statement (grammar depth) allowed c s
      item := fun c s => item (grammar depth) c s
      element := fun c s => element (grammar depth) c s }

/-- Statements up to the end of the text, which has to be met at every look. -/
def statements (g : Grammar) : Parser (List Statement) :=
  repeated do
    if ← sees (·.isEnd) <&&> sees (·.isEnd) <&&> sees (·.isEnd) then pure none
    else do
      let s ← placedItem g
      pure (some s)

end Parser

/-- A module that was read: its statements and its documentation comments. -/
structure ParsedText where
  source : SourceText
  statements : List Statement
  comments : Comments

/-- Reads a whole module, which must be free of reported faults. Every level of nesting takes a
character, with a few levels to spare. -/
def parseModule (context : Context) (source : SourceText) : Except SyntaxError ParsedText :=
  let grammar := Parser.grammar (4 * source.chars.length + 16)
  match Parser.statements grammar context (State.ofText source.chars) with
  | .stopped e _ => .error e
  | .read items final =>
    if final.faulty then .error ⟨0, "a text without faults"⟩
    else .ok ⟨source, items, final.reader.comments⟩

end SchemaCompiler.TypeScript
