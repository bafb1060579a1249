import SchemaCompiler.TypeScript.Parser.Type

/-!
# Functions

Bodies are read for where they end; what they hold is not kept. A function may go without a body,
unless what stands behind its parameters is no end of a statement.
-/

namespace SchemaCompiler.TypeScript.Parser

/-!
## Binding patterns

What a declaration or a parameter binds: a name, or names taken out of an object or a list.
-/

variable (g : Grammar)

/-- The key of a property in an object literal, a pattern or a class. One in brackets is never
fixed. -/
def propertyKey : Parser PropertyKey :=
  inKey do
    settle
    match ← token with
    | .word w => do advance; pure (.fixed w)
    | .name w => do advance; pure (.fixed w)
    | .string s => do advance; pure (.fixed s)
    | .number _ => do advance; pure .computed
    | .bigint => do advance; pure .computed
    | .punct "[" => do
      advance
      let items ← separated "," (withIn g.assign)
      report (items.length > 1)
      expectPunct "]"
      pure .computed
    | _ => fail "a property name"

def defaultValue : Parser Bool := do
  if ← eatPunct "=" then do
    let _ ← withIn g.assign
    pure true
  else pure false

/-- A part of a pattern with its default, which nothing ambient has. -/
def patternElement : Parser (Pattern × Bool) := do
  settle
  let p ← g.pattern
  let defaulted ← defaultValue g
  report (defaulted && (← context).ambient)
  pure (p, defaulted)

/-- How a part of a pattern takes part in it. -/
inductive PatternPart where
  /-- A key and the name that it is bound to, when both are fixed and the name has no default. -/
  | property (binding : Option (String × String))
  | rest (isName : Bool)
  /-- Nothing, between two commas. -/
  | hole

namespace PatternPart

def binding? : PatternPart → Option (String × String)
  | property b => b
  | _ => none

def isRest : PatternPart → Bool
  | rest _ => true
  | _ => false

def isHole : PatternPart → Bool
  | hole => true
  | _ => false

end PatternPart

/-- Whether a rest stands before another part or before the last comma. -/
def restIsInside : List PatternPart → Bool → Bool
  | [], _ => false
  | [last], trailing => last.isRest && trailing
  | p :: parts, trailing => (p.isRest && !parts.all (·.isHole)) || restIsInside parts trailing

/-- Whether a pattern ends with a rest that binds no plain name. -/
def restHasNoName (parts : List PatternPart) : Bool :=
  match parts.getLast? with
  | some (.rest isName) => !isName
  | _ => false

/-- What stands behind a key in a pattern. -/
def propertyBehind (key : PropertyKey) (isWord : Bool) : Parser PatternPart := do
  if ← eatPunct ":" then
    let (inner, defaulted) ← patternElement g
    match key, inner with
    | .fixed name, .name bound _ =>
      pure (.property (if defaulted then none else some (name, bound)))
    | _, _ => pure (.property none)
  else
    match key with
    | .fixed name =>
      if !isWord then fail ":"
      let _ ← defaultValue g
      pure (.property (some (name, name)))
    | .computed => fail ":"

def patternProperty : Parser PatternPart := do
  settle
  if ← eatPunct "..." then
    let p ← g.pattern
    pure (.rest (p matches .name _ _))
  else
    let isWord ← sees (·.isName)
    let key ← propertyKey g
    propertyBehind g key isWord

/-- A mark that the value may be missing, behind a pattern in a declaration without a body. -/
def optionalMark : Parser Unit := do
  if (← context).ambient then
    let _ ← eatPunct "?"

def objectPattern : Parser Pattern := do
  expectPunct "\x7b"
  let (parts, trailing) ← bracketed (commaUpToNoting "\x7d" (patternProperty g))
  report (restIsInside parts trailing)
  if restHasNoName parts then fail "a name behind ..."
  optionalMark
  pure (.object (parts.filterMap (·.binding?)))

def listPart : Parser PatternPart := do
  if ← isPunct "," then pure .hole
  else if ← eatPunct "..." then
    let _ ← g.pattern
    pure (.rest true)
  else
    let _ ← patternElement g
    pure (.property none)

def listPattern : Parser Pattern := do
  expectPunct "["
  let (parts, trailing) ← listUpToNoting "]" (listPart g)
  report (restIsInside parts trailing)
  optionalMark
  pure .other

/-- A pattern without an annotation. -/
def pattern : Parser Pattern := do
  match ← token with
  | .punct "\x7b" => objectPattern g
  | .punct "[" => listPattern g
  | _ => do
    let name ← boundName
    pure (.name name none)

/-- What stands between braces, with its opening brace at hand. The end of the text in the place of
the closing one is a fault. -/
def inBraces {α : Type} (item : Parser α) : Parser (List α) := do
  settle
  expectPunct "\x7b"
  let items ← repeated do
    if ← sees (·.isEnd) then do
      report true
      pure none
    else
      match ← token with
      | .punct "\x7d" => pure none
      | _ => do
        let a ← item
        pure (some a)
  if !(← sees (·.isEnd)) then advance
  pure items

/-- Statements in braces. -/
def block : Parser Unit := do
  let _ ← inBraces (g.statement true)

/-- A statement that is a text and nothing else. -/
structure Directive where
  text : String
  /-- How many characters it is written with, quotes included. -/
  length : Nat

/-- Whether a body is made strict; no escapes are allowed for. -/
def Directive.isStrict (d : Directive) : Bool := d.text == "use strict" && d.length == 12

/-- Where a statement ends that consists of one token, with the semicolon behind it. -/
def singleEnd (t : PlacedToken) : Nat :=
  let rest := t.text.drop (t.stop - t.start)
  let gap := Gap.skip false (rest.length + 1) ⟨rest, t.stop, false, [], false, false⟩
  if gap.rest.head? == some ';' then gap.offset + 1 else t.stop

/-- A statement of a body, and the directive that it may be. -/
def bodyStatement : Parser (Option Directive) := do
  let before := (← state).current
  let _ ← g.statement true
  let stop ← previousEnd
  match before with
  | some ⟨.string text, start, stringEnd, lineBreak, chars⟩ =>
    let alone := singleEnd ⟨.string text, start, stringEnd, lineBreak, chars⟩
    pure (if stop == alone then some ⟨text, stringEnd - start⟩ else none)
  | _ => pure none

/-- Statements in braces, of which the first may be directives. A body is strict by one only if the
parameters are `simple`. -/
def bodyBlock (simple : Bool) : Parser Unit := do
  let found ← inBraces (bodyStatement g)
  let directives := (found.takeWhile Option.isSome).filterMap id
  report (!simple && directives.any (·.isStrict))

/-- The body of a function, and whether there is one. Nothing ambient has a body. -/
def functionBody (simple isAsync isGenerator : Bool) : Parser Bool := do
  let braced ← isPunct "\x7b"
  report (braced && (← context).ambient)
  let omitted ← do
    if braced then pure false else eatSemicolon
  if !omitted then forBody isAsync isGenerator false (withIn (bodyBlock g simple))
  pure !omitted

/-- What a function consists of behind its name. -/
structure FunctionTail where
  parameters : List Parameter
  hasBody : Bool

/-- Type parameters, parameters, result type and body of a function. -/
def functionTail (isAsync isGenerator : Bool) : Parser FunctionTail :=
  within (fun c => { c with isAsync := isAsync, isGenerator := isGenerator }) do
    let _ ← inType (optionalTypeParameters g .ofFunction)
    let ps ← forParameters isAsync isGenerator (parameters g)
    if ← isPunct ":" then
      let _ ← resultBehind g ":"
    let hasBody ← functionBody g (ps.all (·.isSimple)) isAsync isGenerator
    report (!hasBody && ps.any (·.hasDefault))
    pure ⟨ps, hasBody⟩

/-- As `functionTail`, for a method, which is no part of a field's value. -/
def methodTail (isAsync isGenerator : Bool) : Parser FunctionTail :=
  within (fun c => { c with inField := false }) (functionTail g isAsync isGenerator)

/-- What the parameters of a getter are at fault for, or those of a setter. -/
def accessorFault (isGetter : Bool) (tail : FunctionTail) : Bool :=
  let own := tail.parameters.filter (!·.isThis)
  if isGetter then !own.isEmpty
  else own.length != 1 || tail.parameters.head?.any (·.isRest)

/-- A method that reads or writes a property. -/
def accessorTail (isGetter : Bool) : Parser FunctionTail := do
  let tail ← methodTail g false false
  report (accessorFault isGetter tail)
  pure tail

/-- The name of a function or class, which may be left out unless it is `needed`. -/
def optionalName (needed : Bool) (bound : Parser String) : Parser (Option String) := do
  if ← pure needed <||> isIdentifier <||> isWord "this" then do
    let name ← bound
    pure (some name)
  else pure none

/-- A function from its word `function` on: its name, and whether it has a body. -/
def functionFrom (isAsync nameNeeded : Bool) : Parser (Option String × Bool) := do
  expectWord "function"
  let starred ← eatPunct "*"
  within (fun c => { c with inField := false, expectsColon := false }) do
    let name ← optionalName nameNeeded boundName
    let tail ← functionTail g isAsync starred
    pure (name, tail.hasBody)

/-- A function as an expression, which must have a body. -/
def functionExpression (isAsync : Bool) : Parser Unit := do
  let (_, hasBody) ← functionFrom g isAsync false
  if !hasBody then fail "a body"

/-- Whether `async function` stands on one line. -/
def atAsyncFunction : Parser Bool := isWord "async" <&&> followsOnLine (·.isWord "function")

end SchemaCompiler.TypeScript.Parser
