import SchemaCompiler.TypeScript.Parser.Type

/-!
# Chains

What can stand behind an expression: members, calls, templates, type arguments and `!`. A chain goes
on as long as one of them follows. The names that classes and interfaces build on are chains too,
without calls and brackets.
-/

namespace SchemaCompiler.TypeScript.Parser

variable (g : Grammar)

/-! ## Arguments -/

def spreadItem : Parser ListEntry := do
  if ← eatPunct "..." then do
    let e ← withIn g.assign
    pure (.spread e)
  else do
    let e ← withIn g.assign
    pure (.item e)

/-- Arguments in parentheses. -/
def arguments : Parser Unit :=
  bracketed do
    settle
    expectPunct "("
    if !(← sees (closes ")")) then
      let _ ← spreadItem g
      let _ ← repeated do
        if ← sees (closes ")") then pure none
        else do
          expectPunct ","
          if ← isPunct ")" then pure none
          else do
            let item ← spreadItem g
            pure (some item)
    expectPunct ")"

/-- A call, which is a link of an optional chain when its callee is one. -/
def callOf (callee : Expr) (optional : Bool) (types : List TypeExpr) : Expr :=
  if optional || callee.isOptional then .optionalLink false optional else .call callee types

/-- A template behind an expression. -/
def taggedTemplate (tag : Expr) : Parser Expr := do
  report (tag matches .optionalLink _ _)
  let _ ← bracketed (template true (withIn g.expression))
  pure .atom

/-! ## Type arguments -/

/-- A call with type arguments, or a template with type arguments, behind an expression. -/
def genericCall (calls : Bool) (e : Expr) : Parser Expr := do
  let types ← typeArguments g
  if ← pure calls <&&> isPunct "(" then
    arguments g
    pure (callOf e false types)
  else if ← sees (·.isBacktick) then taggedTemplate g e
  else fail "arguments"

/-- The marks behind type arguments that make them no instantiation. -/
def instantiationMarks : List String := ["<", ">", "+", "-", "("]

/-- Whether type arguments that end before the token at hand can stand without a call. -/
def endsInstantiation (s : State) : Bool :=
  !(s.token.isAnyPunct instantiationMarks || s.token.isBacktick) &&
    (s.lineBreak || s.token.isAnyPunct ["/", "/="] || s.token.isWord "as" ||
      !s.token.startsExpression)

/-- Type arguments that are not followed by a call. -/
def instantiation (e : Expr) : Parser Expr := do
  let _ ← typeArguments g
  if endsInstantiation (← state) then pure (.instantiation e) else fail "something else"

/-! ## Members -/

/-- A member behind a dot. -/
def dotMember (e : Expr) (optional : Bool) : Parser Expr := do
  let plain ← do
    if ← isPunct "#" then do
      let _ ← privateName
      pure (.index e)
    else do
      let w ← anyWord
      pure (.member e w)
  pure (if optional || e.isOptional then .optionalLink true optional else plain)

/-- A computed member in brackets. -/
def bracketMember (e : Expr) (optional : Bool) : Parser Expr := do
  expectPunct "["
  let _ ← withIn g.expression
  expectPunct "]"
  pure (if optional || e.isOptional then .optionalLink true optional else .index e)

/-! ## Steps -/

/-- What a chain may consist of besides names; behind `?.` a call is always one of its steps. -/
structure Steps where
  calls : Bool
  brackets : Bool

namespace Steps

def all : Steps := ⟨true, true⟩

def members : Steps := ⟨false, true⟩

def names : Steps := ⟨false, false⟩

/-- What `?.` can be followed by other than a name. -/
def optionalMarks (steps : Steps) : List String :=
  if steps.brackets then ["[", "(", "<"] else ["(", "<"]

end Steps

/-- Type arguments behind an expression, with a call or without one. -/
def genericStep (calls : Bool) (e : Expr) : Parser (Option Expr) := do
  if ← isPunct "<" then
    readingAngles true do
      match ← attempt (genericCall g calls e) with
      | some found => pure (some found)
      | none => attempt (instantiation g e)
  else pure none

/-- Passes over type arguments behind a word that is no expression, unless a call follows them. -/
def passTypes : Parser Unit := do
  settle
  if ← isPunct "<" then
    let _ ← readingAngles true (attempt (instantiation g .atom))

/-- A step behind a mark that is no dot: `!`, type arguments, or a call with them. -/
def markStep (steps : Steps) (e : Expr) : Parser (Option Expr) := do
  if ← sameLine <&&> isPunct "!" then do
    expectOperator
    advance
    pure (some (.nonNull e))
  else genericStep g steps.calls e

/-- Whether `?` and a dot are at hand. -/
def atOptionalMark : Parser Bool := isPunct "?" <&&> follows (·.isPunct ".")

/-- A member, a call or a template. -/
def linkStep (steps : Steps) (e : Expr) : Parser (Option Expr) := do
  let optional ← atOptionalMark
  if optional then advance
  let behindDot ← pure optional <&&> follows (·.isAnyPunct steps.optionalMarks)
  if behindDot then advance
  if ← pure (steps.brackets && (!optional || behindDot)) <&&> isPunct "[" then
    return some (← bracketMember g e optional)
  if ← pure behindDot <||> (pure (steps.calls && !optional) <&&> isPunct "(") then
    let types ← do
      if ← isPunct "<" then typeArguments g else pure []
    arguments g
    return some (callOf e optional types)
  if ← eatPunct "." then
    return some (← dotMember e optional)
  if ← sees (·.isBacktick) then
    return some (← taggedTemplate g e)
  return none

/-- One step of a chain, if another one follows. -/
def chainStep (steps : Steps) (e : Expr) : Parser (Option Expr) := do
  settle
  match ← markStep g steps e with
  | some next => pure (some next)
  | none => linkStep g steps e

def chainFrom (steps : Steps) : Nat → Expr → Parser Expr
  | 0, e => pure e
  | fuel + 1, e => do
    match ← chainStep g steps e with
    | some next => chainFrom steps fuel next
    | none => pure e

/-- The chain that starts with an expression. Every step takes a token, so the length of the text
bounds their number. -/
def chained (steps : Steps) (e : Expr) : Parser Expr := bounded fun fuel => chainFrom g steps fuel e

end SchemaCompiler.TypeScript.Parser
