import SchemaCompiler.TypeScript.Parser.Type

/-!
# Elements in angle brackets

`<name attribute="text">children</name>` as an expression. Where its first bracket has been read as
an operator, its names are read as words, and it can only close itself.
-/

namespace SchemaCompiler.TypeScript.Parser

variable (g : Grammar)

/-! ## Names -/

/-- A name in a tag. -/
def tagWord : Parser String := do
  settle
  match ← token with
  | .tagName w => do advance; pure w
  | _ => do
    if (← context).inPlainTag then identifier else fail "a name"

/-- A name with `:` in it. -/
def attributeName : Parser String := do
  let head ← tagWord
  if ← eatPunct ":" then do
    let tail ← tagWord
    pure (head ++ ":" ++ tail)
  else pure head

/-- The name of an element, with dots between its parts. -/
def elementName : Parser String := do
  let head ← attributeName
  let more ← repeated do
    if ← eatPunct "." then do
      let part ← tagWord
      pure (some ("." ++ part))
    else pure none
  pure (String.join (head :: more))

/-! ## Attributes -/

/-- An expression in braces, and whether there is one. -/
def bracedExpression : Parser Bool := do
  settle
  advance
  let given ← do
    if ← isPunct "\x7d" then pure false
    else do
      let _ ← eatPunct "..."
      let _ ← g.expression
      pure true
  expectPunct "\x7d"
  pure given

def attributeValue : Parser Unit := do
  settle
  match ← token with
  | .punct "\x7b" => do
    if !(← bracedExpression g) then fail "an expression"
  | .string _ => advance
  | .tagStart => g.element
  | _ => fail "a value"

def elementAttribute : Parser Unit := do
  settle
  if ← eatPunct "\x7b" then
    settle
    expectPunct "..."
    let _ ← g.assign
    expectPunct "\x7d"
  else
    let _ ← attributeName
    if ← eatPunct "=" then
      within (fun c => { c with expectsColon := false, inConditional := false }) (attributeValue g)

/-! ## Tags -/

/-- Takes the end of a tag, if it is at hand. -/
def eatTagEnd : Parser Bool := do
  if ← sees (·.isTagEnd) then do advance; pure true else pure false

/-- How a tag opens an element. -/
inductive OpeningTag where
  /-- A tag without a name. -/
  | fragment
  | named (name : String)
  /-- A tag that closes itself. -/
  | closed

/-- The attributes up to the end of a tag, and whether it closes itself. -/
def tagTail : Parser Bool := do
  if ← isPunct "<" then
    let _ ← attempt (typeArguments g)
  let _ ← untilToken (fun t => t.isPunct "/" || t.isTagEnd || t.isEnd) (elementAttribute g)
  let closed ← eatPunct "/"
  let ended ← eatTagEnd <||> (pure (← context).inPlainTag <&&> eatPunct ">")
  if !ended then fail ">"
  pure closed

/-- An opening tag behind its first bracket. -/
def openingTag : Parser OpeningTag := do
  if ← eatTagEnd then pure .fragment
  else
    let name ← elementName
    let closed ← tagTail g
    pure (if closed then .closed else .named name)

/-- A closing tag behind its slash: the name in it. -/
def closingTag : Parser (Option String) := do
  if ← eatTagEnd then pure none
  else
    let name ← elementName
    if !(← eatTagEnd) then fail ">"
    pure (some name)

/-! ## Children -/

/-- A child, or the closing tag and with it nothing. -/
def child : Parser (Option Unit) := do
  match ← token with
  | .tagStart =>
    if ← follows (·.isPunct "/") then do
      advance
      advance
      pure none
    else do
      g.element
      pure (some ())
  | .tagText => do
    advance
    pure (some ())
  | .punct "\x7b" => do
    let _ ← follows (·.isPunct "...")
    let _ ← bracedExpression g
    pure (some ())
  | _ => fail "a child"

/-- Children, and the closing tag behind them with the name that is expected in it. -/
def childrenUpTo (name : Option String) : Parser Unit := do
  let _ ← repeated (child g)
  if (← closingTag) != name then fail "the closing tag"

/-- An element, whose first bracket is at hand. -/
def element : Parser Unit := do
  settle
  let plain := !(← sees (·.isTagStart))
  advance
  within (fun c => { c with inPlainTag := plain, wholeAngles := false }) do
    match ← openingTag g with
    | .closed => pure ()
    | .fragment => childrenUpTo g none
    | .named name => childrenUpTo g (some name)

end SchemaCompiler.TypeScript.Parser
