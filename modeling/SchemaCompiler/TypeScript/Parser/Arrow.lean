import SchemaCompiler.TypeScript.Parser.Function

/-!
# Arrow functions

What stands in parentheses may be parameters or an expression; it is read once, as expressions where
that is possible, and judged when an arrow follows.
-/

namespace SchemaCompiler.TypeScript.Parser

variable (g : Grammar)

/-- The body of an arrow function: statements in braces, or an expression. -/
def arrowBody (simple isAsync : Bool) : Parser Unit := do
  let braced ← isPunct "\x7b"
  report (braced && (← context).ambient)
  forBody isAsync false true do
    if braced then bodyBlock g simple
    else
      let _ ← g.assign

/-- An arrow function from its type parameters on, whose word `async` has been passed. -/
def asyncArrow : Parser Unit := do
  typeParameters g .ofAsyncArrow
  let ps ← parameters g
  if ← isPunct ":" then
    let _ ← resultBehind g ":"
  expectPunct "=>"
  within (fun c => { c with isAsync := true, isGenerator := false })
    (arrowBody g (ps.all (·.isSimple)) true)

/-! ## What stands in parentheses -/

/-- An item between parentheses. -/
inductive ParenItem where
  | item (e : Expr)
  | spread (e : Expr)
  /-- Only a parameter can look like this. -/
  | parameter (isRest isSimple isProtected : Bool)

namespace ParenItem

def isParameter : ParenItem → Bool
  | parameter _ _ _ => true
  | _ => false

def isRest : ParenItem → Bool
  | spread _ => true
  | parameter rest _ _ => rest
  | item _ => false

def isSpread : ParenItem → Bool
  | spread _ => true
  | _ => false

def expr : ParenItem → Expr
  | item e => e
  | spread e => e
  | parameter _ _ _ => .other

/-- Whether an item is a name and nothing else. -/
def isSimple : ParenItem → Bool
  | item e => e.isName
  | spread _ => false
  | parameter _ simple _ => simple

/-- Whether an item consists of a name, which may take the rest. -/
def isNamed : ParenItem → Bool
  | spread e => e.isName
  | p => p.isSimple

/-- An item as a parameter. -/
def asParameter : ParenItem → Fit
  | item e => e.asBinding.and (.unlessFaulty !e.bindsProtected)
  | spread e => e.asBinding.and (.unlessFaulty (!e.bindsProtected && !(e matches .assign _ _)))
  | parameter _ _ isProtected => .unlessFaulty !isProtected

/-- All items as parameters. A rest must come last, with no comma behind it. -/
def asParameters : List ParenItem → Bool → Fit
  | [], _ => .fits
  | [last], trailing => last.asParameter.and (.unlessFaulty !(last.isRest && trailing))
  | p :: rest, trailing =>
    (if p.isRest then .faulty else p.asParameter).and (asParameters rest trailing)

end ParenItem

/-- The branches of a conditional behind its `?`. -/
def branches : Parser Expr := do
  let yes ← within
    (fun c => { c with inConditional := true, expectsColon := true, allowsIn := true }) g.assign
  expectPunct ":"
  let no ← within (fun c => { c with inConditional := true, expectsColon := false }) g.assign
  pure (.conditional yes no)

/-- What a `?` behind an item makes of it: the mark of an optional parameter, or a conditional. -/
def questioned (e : Expr) (isSpread : Bool) : Parser (Expr × Bool) := do
  if !(← isPunct "?") then pure (e, false)
  else if ← follows (·.isAnyPunct [",", ":", ")", "="]) then
    advance
    report isSpread
    if !e.isName then fail "a name"
    pure (e, true)
  else if isSpread then pure (e, false)
  else do
    advance
    let whole ← branches g
    pure (whole, false)

/-- The annotation of an item that was read as an expression. Only what is a pattern all through can
have one. -/
def itemAnnotation (e : Expr) : Parser Unit := do
  if e matches .assign true _ then fail "a parameter"
  if e.isName || e.isDestructured then
    let _ ← optionalAnnotation g

/-- An item that was read as an expression so far, with what makes it a parameter. -/
def finishItem (e : Expr) (isSpread : Bool) : Parser ParenItem := do
  let (e, optional) ← questioned g e isSpread
  if ← pure optional <||> isPunct ":" then
    accept e.asBinding
    itemAnnotation g e
    let defaulted ← eatPunct "="
    if defaulted then
      let _ ← g.assign
    pure (.parameter isSpread (e.isName && !isSpread && !defaulted) e.bindsProtected)
  else if isSpread then pure (.spread e)
  else pure (.item e)

/-- Whether `async` stands in front of what it may modify. -/
def atAsync : Parser Bool :=
  isWord "async" <&&> follows fun t => t.isPunct "(" || t.isName

/-- An item between parentheses. One that starts with a name is read by `operand`, which leaves a
`?` behind it alone, and `finish` reads an assignment to it. -/
def parenItem (operand : Parser Expr) (finish : Expr → Parser Expr) : Parser ParenItem := do
  let isAsync ← atAsync
  let start ← place
  let modified ← strayModifier
  report modified
  let isSpread ← isPunct "..."
  let named ← pure !isAsync <&&>
    (isIdentifier <||> (pure isSpread <&&> follows (·.isReference)))
  let _ ← eatPunct "..."
  let e ← within (fun c => { c with arrowStart := some start }) do
    if !named then g.assign
    else
      let e ← operand
      if isSpread then pure e else finish e
  finishItem g e isSpread

/-- An item, and behind it what an arrow makes of the items so far: if the first one is a name, they
are the parameters of a function. Otherwise the arrow stands for nothing. -/
def arrowItem (before : List ParenItem) (item : Parser ParenItem) : Parser (List ParenItem) := do
  let current ← item
  let items := before ++ [current]
  if ← eatPunct "=>" then
    if items.head?.any (·.isNamed) then
      accept (ParenItem.asParameters items false)
      arrowBody g (items.all (·.isSimple)) false
      pure (items ++ [.item .arrow])
    else pure items
  else pure items

/-- The items between parentheses behind `before`, and whether a comma stands behind the last one. -/
def parenItemsFrom (item : Parser ParenItem) :
    Nat → List ParenItem → Bool → Parser (List ParenItem × Bool)
  | 0, before, trailing => pure (before, trailing)
  | fuel + 1, before, trailing => do
    if ← sees (closes ")") then pure (before, trailing)
    else
      let items ← arrowItem g before item
      if ← isPunct ")" then pure (items, false)
      else
        expectPunct ","
        settle
        parenItemsFrom item fuel items true

/-- Items in parentheses. -/
def parenItems (item : Parser ParenItem) : Parser (List ParenItem × Bool) := do
  expectPunct "("
  let found ← bounded fun fuel => parenItemsFrom g item fuel [] false
  expectPunct ")"
  pure found

/-! ## Behind the parentheses -/

/-- An arrow function behind its parameters, in the branch of a conditional. A colon there may also
belong to the conditional, so the function counts only when another one follows. -/
def arrowInBranch (items : List ParenItem) (isAsync expectsColon : Bool) : Parser Unit := do
  let _ ← resultBehind g ":"
  expectPunct "=>"
  accept (ParenItem.asParameters items false)
  arrowBody g (items.all (·.isSimple)) isAsync
  if ← pure expectsColon <&&> (do pure !(← isPunct ":")) then fail ":"

/-- A result type with an arrow behind it. -/
def arrowResult : Parser Unit := do
  let _ ← resultBehind g ":"
  if !(← isPunct "=>") then fail "=>"

/-- The rest of an arrow function behind its parameters and result type, and whether its body stands
in braces. -/
def arrowBehind (items : List ParenItem) (trailing mayBeArrow isAsync : Bool) : Parser Bool := do
  if (← lineBreak) || !mayBeArrow then fail "something else"
  expectPunct "=>"
  accept (ParenItem.asParameters items trailing)
  let braced ← isPunct "\x7b"
  arrowBody g (items.all (·.isSimple)) isAsync
  pure braced

/-- Whether a mark between two operands is at hand. -/
def atInfixMark (isMark : String → Bool) : Parser Bool := do
  match ← token with
  | .punct p => pure (isMark p)
  | _ => pure false

/-- What parentheses without an arrow behind them mean; behind `async` they hold arguments. -/
def parenValue (items : List ParenItem) (isAsync : Bool) : Parser Expr := do
  report (items.any (·.expr.hasDefaults))
  if items.any (·.isParameter) then fail "an expression"
  if isAsync then pure (.call (.name "async") [])
  else if items.any (·.isSpread) then fail "an expression"
  else
    match items.map (·.expr) with
    | [] => fail "an expression"
    | [only] => pure (.paren only)
    | several => pure (.paren (.sequence several))

end SchemaCompiler.TypeScript.Parser
