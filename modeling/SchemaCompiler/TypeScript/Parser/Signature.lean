import SchemaCompiler.TypeScript.Parser.Basic

/-!
# Parameters, type parameters and result types

The parts that function types, functions and methods share.
-/

namespace SchemaCompiler.TypeScript.Parser

variable (g : Grammar)

/-! ## Type arguments -/

/-- `<A, B>`; the opening bracket is at hand. The list may be empty. -/
def typeArguments : Parser (List TypeExpr) := do
  settle
  let types ← inType <| inNoEnclosure do
    if ← isPunct "<<" then splitShift else expectPunct "<"
    commaUntil (·.isPunct ">") g.type
  expectOperator
  expectPunct ">"
  pure types

/-- Type arguments of a name in a type, if there are any on the same line. -/
def optionalTypeArguments (marks : List String) : Parser (List TypeExpr) := do
  if ← sameLine <&&> isAnyPunct marks then readingAngles false (typeArguments g) else pure []

/-! ## Type parameters -/

/-- Which words may modify the type parameters of a construct. -/
structure Variance where
  /-- `in` and `out` -/
  inOut : Bool
  const : Bool

namespace Variance

def ofFunction : Variance := ⟨false, true⟩

def ofAsyncArrow : Variance := ⟨false, false⟩

def ofType : Variance := ⟨true, false⟩

def ofClass : Variance := ⟨true, true⟩

/-- Whether a word is at fault behind the modifiers that stand before it. -/
def isFaulty (v : Variance) (before : List String) (w : String) : Bool :=
  match w with
  | "const" => !v.const
  | "in" => !v.inOut || before.contains "in" || before.contains "out"
  | "out" => !v.inOut || before.contains "out"
  | _ => true

/-- Whether one of a list of modifiers is at fault. -/
def anyFaulty (v : Variance) : List String → List String → Bool
  | _, [] => false
  | before, w :: rest => v.isFaulty before w || v.anyFaulty (w :: before) rest

end Variance

def typeParameterWords : List String :=
  ["public", "private", "protected", "readonly", "abstract", "const", "override", "in", "out"]

def typeParameter (v : Variance) : Parser Unit := do
  settle
  let words ← repeated (modifier typeParameterWords)
  report (v.anyFaulty [] words)
  let _ ← anyWord
  if ← eatWord "extends" then
    let _ ← g.type
  if ← eatPunct "=" then
    let _ ← g.type

/-- `<T extends A = B>`; the opening bracket is at hand, which may have been read as one of a tag. -/
def typeParameters (v : Variance) : Parser Unit :=
  inType <| inNoEnclosure do
    if !(← sees fun t => t.isPunct "<" || t.isTagStart) then fail "<"
    advance
    let _ ← commaUpTo ">" (typeParameter g v)

/-- Type parameters if there are any, and whether there are. -/
def optionalTypeParameters (v : Variance) : Parser Bool := do
  if ← isPunct "<" then do typeParameters g v; pure true else pure false

/-! ## Annotations and result types -/

def typeAnnotation : Parser TypeExpr :=
  inType do
    expectPunct ":"
    g.type

def optionalAnnotation : Parser (Option TypeExpr) := do
  if ← isPunct ":" then do
    let t ← typeAnnotation g
    pure (some t)
  else pure none

/-- A type in the place of a result, where it may also be a statement on a parameter. -/
def resultType : Parser TypeExpr := do
  let lo ← place
  let asserted ← do
    if ← isWord "asserts" <&&> follows (·.isReference) then do advance; pure true
    else pure false
  let tested ← isIdentifier <&&> followsOnLine (·.isWord "is")
  if !asserted && !tested then g.type
  else do
    advance
    if tested then
      advance
      let _ ← g.type
    pure (.other (← spanFrom lo))

/-- A result type behind a mark. -/
def resultBehind (mark : String) : Parser TypeExpr :=
  inType do
    expectPunct mark
    resultType g

/-! ## Parameters -/

/-- What matters of a parameter. -/
structure Parameter where
  isRest : Bool := false
  isThis : Bool := false
  hasDefault : Bool := false
  /-- It binds one name and no pattern. -/
  isName : Bool := false

/-- A parameter that is a name and nothing else. -/
def Parameter.isSimple (p : Parameter) : Bool := p.isName && !p.hasDefault && !p.isRest

/-- A parameter behind `...`. -/
def restParameter : Parser Parameter := do
  let _ ← g.pattern
  if ← eatPunct "=" then
    let _ ← g.assign
    report true
  let _ ← optionalAnnotation g
  report (← eatPunct "?")
  pure { isRest := true }

/-- A parameter that takes one argument. -/
def singleParameter : Parser Parameter := do
  settle
  let modified ← strayModifier
  report modified
  let isThis ← isWord "this"
  let p ← g.pattern
  let optional ← eatPunct "?"
  let _ ← optionalAnnotation g
  let defaulted ← eatPunct "="
  if defaulted then
    let _ ← g.assign
    report (optional || (← context).ambient)
  pure { isThis := isThis, hasDefault := defaulted, isName := p matches .name _ _ }

def parameter : Parser Parameter := do
  settle
  if ← eatPunct "..." then restParameter g else singleParameter g

/-- Whether a parameter that takes the rest is followed by another one or by a comma. -/
def restIsNotLast : List Parameter → Bool → Bool
  | [], _ => false
  | [last], trailing => last.isRest && trailing
  | p :: rest, trailing => p.isRest || restIsNotLast rest trailing

/-- Parameters in parentheses, each read by `one`. -/
def parametersOf (one : Parser Parameter) : Parser (List Parameter) := do
  expectPunct "("
  let (found, trailing) ← listUpToNoting ")" one
  report (restIsNotLast found trailing)
  pure found

def parameters : Parser (List Parameter) := parametersOf (parameter g)

/-- Parameters of a type, which have no defaults. -/
def typeOnlyParameters : Parser (List Parameter) := do
  let found ← parameters g
  if found.any (·.hasDefault) then fail "a parameter without a default"
  pure found

/-- Type parameters, parameters and the result type of a member of a type. -/
def signature : Parser Unit := do
  let _ ← optionalTypeParameters g .ofFunction
  let _ ← typeOnlyParameters g
  if ← isPunct ":" then
    let _ ← resultBehind g ":"

end SchemaCompiler.TypeScript.Parser
