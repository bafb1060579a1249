import SchemaCompiler.TypeScript.Cover
import SchemaCompiler.TypeScript.Reader

/-!
# Parsing

A parser reads from a state that holds what has been read ahead and the reader behind it. It gives a
result, or the place where the text stops making sense; either way the state tells how far it came. A
state is a value, so going back is keeping an earlier one.

A token is read when somebody looks at it, in the mode of that moment, and then stays as it was read
until it is taken or the state is left.

Many faults do not keep a parser from going on. They are reported, which marks the state, and a
module with a report is refused in the end. What is only tried is read quietly: nothing in it is
reported, also when the attempt is kept.
-/

namespace SchemaCompiler.TypeScript

/-- Where a text stops being a module, and what would have been expected there. -/
structure SyntaxError where
  offset : Nat
  expected : String

def SyntaxError.message (e : SyntaxError) : String := "expected " ++ e.expected

/-- What the surroundings of a construct allow, and how they want tokens read. -/
structure Context extends Mode where
  /-- The file holds declarations only. -/
  declarationFile : Bool := false
  /-- Reports are dropped. -/
  quiet : Bool := false
  /-- Declarations without bodies. -/
  ambient : Bool := false
  /-- An expression may hold the operator `in`. -/
  allowsIn : Bool := false
  /-- `extends` ends the type. -/
  noConditional : Bool := false
  /-- Inside a branch of a conditional. -/
  inConditional : Bool := false
  /-- A colon ends the expression. -/
  expectsColon : Bool := false
  /-- The place where an arrow function may start. -/
  arrowStart : Option Nat := none
  /-- In an element whose `<` was read as an operator. -/
  inPlainTag : Bool := false
  inParameters : Bool := false
  inFunction : Bool := false
  /-- Inside a function other than an arrow function. -/
  ownThis : Bool := false
  inClass : Bool := false
  /-- In the value of a field or a block of a class. -/
  inField : Bool := false
  /-- The class around extends another one. -/
  hasParent : Bool := false
  isAsync : Bool := false
  isGenerator : Bool := false
  /-- At the start of a loop's head. -/
  inLoopHead : Bool := false
  loopAwaits : Bool := false
  breaks : Bool := false
  continues : Bool := false
  /-- Labels that a jump may name. -/
  labels : List String := []

structure State where
  reader : Reader
  /-- The token at hand, once somebody has looked at it. -/
  current : Option PlacedToken := none
  /-- The token behind it, once somebody has looked at it. -/
  ahead : Option PlacedToken := none
  /-- Where the token before ended. -/
  previousEnd : Nat
  /-- A fault has been reported. -/
  faulty : Bool := false
  /-- Length of the whole text. -/
  size : Nat

/-- What a parser comes to. -/
inductive Outcome (α : Type) where
  | read (value : α) (state : State)
  | stopped (error : SyntaxError) (state : State)

abbrev Parser (α : Type) := Context → State → Outcome α

instance : Monad Parser where
  pure a := fun _ s => .read a s
  bind p f := fun c s =>
    match p c s with
    | .read a s' => f a c s'
    | .stopped e s' => .stopped e s'

namespace State

/-- The state at the start of a text. -/
def ofText (chars : List Char) : State :=
  let reader := Reader.ofText chars
  { reader := reader, previousEnd := reader.offset, size := chars.length }

/-- Marks the state, unless the fault is none or nobody listens. -/
def report (s : State) (c : Context) (fault : Bool) : State :=
  if fault && !c.quiet then { s with faulty := true } else s

/-- The state behind a step of the reader, whose token is still to be put somewhere. -/
def after (s : State) (c : Context) (step : Reading) : State :=
  { s with
    reader := step.reader, faulty := s.faulty || step.grave || (step.faulty && !c.quiet) }

/-- Looks at the token at hand. -/
def look (s : State) (c : Context) : State :=
  match s.current, s.ahead with
  | some _, _ => s
  | none, some next => { s with current := some next, ahead := none }
  | none, none =>
    let step := s.reader.read c.toMode
    { s.after c step with current := step.found }

/-- Looks at the token behind the one at hand. -/
def lookAhead (s : State) (c : Context) : State :=
  match s.ahead with
  | some _ => s
  | none =>
    let step := s.reader.read c.toMode
    { s.after c step with ahead := step.found }

/-- Where the token at hand starts, as far as is known. -/
def place (s : State) : Nat := (s.current.map (·.start)).getD s.previousEnd

/-- The token at hand, as far as is known. -/
def token (s : State) : Token := (s.current.map (·.token)).getD .eof

/-- Whether a line ended in front of the token at hand; the end of the text counts as one. -/
def lineBreak (s : State) : Bool := (s.current.map (·.lineBreak)).getD true

/-- Takes the token at hand. -/
def take (s : State) : State :=
  match s.current with
  | some t => { s with current := none, previousEnd := t.stop }
  | none => s

/-- Whether a statement may end before the token at hand. -/
def endsStatement (s : State) : Bool :=
  s.lineBreak || s.token.isAnyPunct [";", "\x7d"]

/-- Opens and closes things around what has not been read. -/
def withEnclosures (s : State) (enclosures : List Enclosure) : State :=
  { s with reader := { s.reader with around := { s.reader.around with enclosures := enclosures } } }

/-- No expression starts where the reader is. -/
def expectingOperator (s : State) : State :=
  { s with reader := { s.reader with around := { s.reader.around with expectsValue := false } } }

end State

instance {α : Type} : Inhabited (Parser α) :=
  ⟨fun _ s => .stopped ⟨s.place, "something else"⟩ s⟩

namespace Parser

variable {α β : Type}

/-! ## Tokens at hand -/

def context : Parser Context := fun c s => .read c s

/-- The state with the token at hand looked at. -/
def state : Parser State := fun c s => .read (s.look c) (s.look c)

def within (change : Context → Context) (p : Parser α) : Parser α := fun c s => p (change c) s

/-- What is read here may hold the operator `in`. -/
def withIn (p : Parser α) : Parser α := within (fun c => { c with allowsIn := true }) p

/-- The context of what stands in brackets. -/
def bracketed (p : Parser α) : Parser α :=
  within (fun c => { c with expectsColon := false }) p

/-- The context of types. -/
def inType (p : Parser α) : Parser α := within (fun c => { c with inType := true }) p

/-- Whether angle brackets are read as parts of longer operators in types too. -/
def readingAngles (whole : Bool) (p : Parser α) : Parser α :=
  within (fun c => { c with wholeAngles := whole }) p

def fail (expected : String) : Parser α := fun _ s => .stopped ⟨s.place, expected⟩ s

/-- Reports a fault and goes on. -/
def report (fault : Bool) : Parser Unit := fun c s => .read () (s.report c fault)

/-- Goes on, reports or stops, as an expression fits in its place. -/
def accept : Fit → Parser Unit
  | .fits => pure ()
  | .faulty => report true
  | .refused => fail "a pattern"

/-- The token at hand. Text that makes no token is taken, but gives none. -/
def token : Parser Token := fun c s =>
  let s := s.look c
  match s.token with
  | .broken => .stopped ⟨s.place, "a token"⟩ s.take
  | t => .read t s

def place : Parser Nat := fun c s => let s := s.look c; .read s.place s

/-- Looks at the token at hand, for what its first look may pass over. -/
def settle : Parser Unit := fun c s => .read () (s.look c)

def lineBreak : Parser Bool := fun c s => let s := s.look c; .read s.lineBreak s

/-- Whether no line ended in front of the token at hand. -/
def sameLine : Parser Bool := do pure !(← lineBreak)

def advance : Parser Unit := fun c s => .read () (s.look c).take

def previousEnd : Parser Nat := fun _ s => .read s.previousEnd s

def spanFrom (lo : Nat) : Parser Span := fun _ s => .read ⟨lo, s.previousEnd⟩ s

/-- Whether the token at hand satisfies a test. -/
def sees (test : Token → Bool) : Parser Bool := fun c s =>
  let s := s.look c
  .read (test s.token) s

def isPunct (text : String) : Parser Bool := sees (·.isPunct text)

def isWord (text : String) : Parser Bool := sees (·.isWord text)

def isAnyPunct (texts : List String) : Parser Bool := sees (·.isAnyPunct texts)

def isAnyWord (texts : List String) : Parser Bool := sees (·.isAnyWord texts)

/-- Whether the token behind the one at hand satisfies a test. -/
def follows (test : Token → Bool) : Parser Bool := fun c s =>
  let s := (s.look c).lookAhead c
  .read (s.ahead.any (test ·.token)) s

/-- As `follows`, for a token on the same line. -/
def followsOnLine (test : Token → Bool) : Parser Bool := fun c s =>
  let s := (s.look c).lookAhead c
  .read (s.ahead.any fun t => !t.lineBreak && test t.token) s

def eatPunct (text : String) : Parser Bool := do
  if ← isPunct text then do advance; pure true else pure false

def eatWord (text : String) : Parser Bool := do
  if ← isWord text then do advance; pure true else pure false

def expectPunct (text : String) : Parser Unit := do
  if ← isPunct text then advance else fail text

def expectWord (text : String) : Parser Unit := do
  if ← isWord text then advance else fail text

/-- Whether nothing but blanks and comments stand between the token before and the one at hand. -/
def adjoins : Parser Bool := fun c s =>
  let s := s.look c
  .read (s.place == s.previousEnd) s

/-! ## Going back -/

/-- The result of a parser that reads quietly, or the state before it when it fails. -/
def attempt (p : Parser α) : Parser (Option α) := fun c s =>
  match p { c with quiet := true } s with
  | .read a s' => .read (some a) s'
  | .stopped _ _ => .read none s

/-- As `attempt`, for a test that keeps what it has read only when it holds. -/
def attemptWhether (p : Parser Bool) : Parser Bool := fun c s =>
  match p { c with quiet := true } s with
  | .read true s' => .read true s'
  | _ => .read false s

/-- Whether what follows satisfies a test; nothing is taken. -/
def ahead (p : Parser Bool) : Parser Bool := fun c s =>
  match p { c with quiet := true } s with
  | .read b _ => .read b s
  | .stopped _ _ => .read false s

/-- The result of a parser, if it gives one; it is left where it came to in any case. -/
def tolerate (p : Parser α) : Parser (Option α) := fun c s =>
  match p c s with
  | .read a s' => .read (some a) s'
  | .stopped _ s' => .read none s'

/-! ## Repetition -/

/-- Runs a parser that goes round as often as it is allowed to. Every round takes at least one token,
so the length of the text bounds their number. -/
def bounded (p : Nat → Parser α) : Parser α := fun c s => p (s.size + 2) c s

def repeatFor (p : Parser (Option α)) : Nat → Parser (List α)
  | 0 => pure []
  | fuel + 1 => do
    match ← p with
    | none => pure []
    | some a => do
      let as ← repeatFor p fuel
      pure (a :: as)

/-- Repeats until `p` gives nothing. -/
def repeated (p : Parser (Option α)) : Parser (List α) := bounded (repeatFor p)

/-- Items until the token at hand satisfies a test. -/
def untilToken (stops : Token → Bool) (item : Parser α) : Parser (List α) :=
  repeated do
    if ← sees stops then pure none
    else do
      let a ← item
      pure (some a)

/-- Items up to a closing bracket, which is taken. -/
def upTo (close : String) (item : Parser α) : Parser (List α) := do
  let items ← untilToken (·.isPunct close) item
  expectPunct close
  pure items

/-- Items with commas between them until the token at hand satisfies a test. A comma may stand
behind the last one. -/
def commaUntil (stops : Token → Bool) (item : Parser α) : Parser (List α) :=
  untilToken stops do
    let a ← item
    if ← eatPunct "," <||> sees stops then pure a
    else do
      expectPunct ","
      pure a

/-- Items with commas between them up to a closing bracket, which is taken. -/
def commaUpTo (close : String) (item : Parser α) : Parser (List α) := do
  let items ← commaUntil (·.isPunct close) item
  expectPunct close
  pure items

/-- Whether a token ends a list: its closing bracket, or the end of the text. -/
def closes (close : String) (t : Token) : Bool := t.isPunct close || t.isEnd

/-- As `commaUpTo`, where the end of the text ends the list too, but does not close it. -/
def listUpTo (close : String) (item : Parser α) : Parser (List α) := do
  let items ← untilToken (closes close) do
    let a ← item
    if ← isPunct close then pure a
    else do
      expectPunct ","
      pure a
  expectPunct close
  pure items

/-- Items until the token at hand satisfies a test, with commas between them up to a closing bracket,
which is taken; the flag tells whether a comma stands behind the last item. -/
def notingComma (stops : Token → Bool) (close : String) (item : Parser α) :
    Parser (List α × Bool) := do
  let items ← untilToken stops do
    let a ← item
    if ← isPunct close then pure (a, false)
    else do
      expectPunct ","
      settle
      pure (a, true)
  expectPunct close
  pure (items.map (·.1), (items.getLast?.map (·.2)).getD false)

/-- As `listUpTo`; the flag tells whether a comma stands behind the last item. -/
def listUpToNoting (close : String) (item : Parser α) : Parser (List α × Bool) :=
  notingComma (closes close) close item

/-- As `commaUpTo`; the flag tells whether a comma stands behind the last item. -/
def commaUpToNoting (close : String) (item : Parser α) : Parser (List α × Bool) :=
  notingComma (·.isPunct close) close item

/-- One or more items with a separator between them. -/
def separated (mark : String) (item : Parser α) : Parser (List α) := do
  let first ← item
  let more ← repeated do
    if ← eatPunct mark then do
      let a ← item
      pure (some a)
    else pure none
  pure (first :: more)

/-! ## Statement ends -/

def atStatementEnd : Parser Bool := fun c s =>
  let s := s.look c
  .read s.endsStatement s

/-- A semicolon, or a place where one can be left out; the result tells whether it is one. -/
def eatSemicolon : Parser Bool := do
  let s ← state
  if s.token.isPunct ";" then do advance; pure true
  else pure s.endsStatement

def semicolon : Parser Unit := do
  if ← eatSemicolon then pure () else fail ";"

/-! ## Names -/

/-- Any word, reserved or not; in types, what was read as a name in a tag too. -/
def anyWord : Parser String := do
  settle
  match ← token with
  | .word w => do advance; pure w
  | .name w => do advance; pure w
  | .tagName w => do
    if (← context).inType then do advance; pure w else fail "a name"
  | _ => fail "a name"

/-- A name behind `#`, which must follow it directly. -/
def privateName : Parser String := do
  expectPunct "#"
  if !(← adjoins) then fail "a name behind #"
  anyWord

/-- The words that are told to be names with a fault. -/
def faultyNames : List String :=
  ["enum", "implements", "interface", "let", "package", "private", "protected", "public", "static",
   "yield"]

/-- The keywords that may stand for a name all the same. -/
def nameKeywords : List String := ["this", "let", "yield"]

/-- A name that is referred to or bound. -/
def identifier : Parser String := do
  settle
  match ← token with
  | .word w => do
    let c ← context
    report (faultyNames.contains w || (c.inField && w == "arguments"))
    advance
    if Token.isKeyword w && !nameKeywords.contains w && !(w == "await" && c.ambient) then
      fail "an identifier"
    else pure w
  | .name w => do
    report ((← context).inField && w == "arguments")
    advance
    pure w
  | _ => fail "an identifier"

/-- Whether a name that can be referred to is at hand. -/
def isIdentifier : Parser Bool := sees (·.isReference)

/-- A name that is bound. -/
def boundName : Parser String := do
  let name ← identifier
  report (isProtectedName name)
  pure name

/-- As `boundName` for a declaration whose name must not be `let`. -/
def boundNameButLet : Parser String := do
  if ← isWord "let" then fail "another name"
  boundName

/-! ## Modifiers -/

/-- Whether a token can stand behind a word that modifies it. -/
def canFollowModifier : Token → Bool
  | .word _ => true
  | .name _ => true
  | .string _ => true
  | .number _ => true
  | .bigint => true
  | .punct p => ["[", "\x7b", "*", "...", "#"].contains p
  | _ => false

/-- A word in front of something on the same line that it can modify. What is looked at behind a
modifier has been read quietly. -/
def modifier (words : List String) : Parser (Option String) := do
  match ← token with
  | .word w =>
    let modifies ← do
      if words.contains w then
        attemptWhether do
          advance
          sameLine <&&> sees canFollowModifier
      else pure false
    pure (if modifies then some w else none)
  | _ => pure none

/-- Words that may stand in front of a parameter of a constructor. -/
def accessWords : List String := ["public", "protected", "private", "readonly"]

/-- A modifier where none is expected, and whether there is one. -/
def strayModifier : Parser Bool := do
  if ← isAnyWord accessWords <&&> follows fun t => t.isName || t.isAnyPunct ["\x7b", "["] then
    let _ ← modifier accessWords
    pure true
  else pure false

/-! ## Angle brackets -/

/-- Takes the first half off `<<`. -/
def splitShift : Parser Unit := fun _ s =>
  match s.current with
  | some t =>
    let half : PlacedToken := { t with token := .punct "<", start := t.start + 1, lineBreak := false }
    .read () { s with current := some half }
  | none => .read () s

/-- What an angle bracket and an operator right behind it are when they are read as one. -/
def joinedAngle? (first second : String) : Option String :=
  let whole := first ++ second
  if (first == "<" || first == ">") && Lexer.angleOperators.contains whole then some whole else none

/-- Reads an angle bracket behind a type together with what adjoins it. -/
def joinAngles : Parser Unit := fun c s =>
  let s := (s.look c).lookAhead c
  match s.current, s.ahead with
  | some first, some second =>
    match first.token, second.token with
    | .punct p, .punct q =>
      match if first.stop = second.start then joinedAngle? p q else none with
      | some whole =>
        let joined := { first with token := .punct whole, stop := second.stop }
        .read () { s with current := some joined, ahead := none }
      | none => .read () s
    | _, _ => .read () s
  | _, _ => .read () s

/-- Runs a parser with the whole text as the only enclosure. -/
def inNoEnclosure (p : Parser α) : Parser α := fun c s =>
  let saved := s.reader.around.enclosures
  let opened := s.withEnclosures (saved.drop (saved.length - 1))
  match p c opened with
  | .read a s' => .read a (s'.withEnclosures saved)
  | .stopped e s' => .stopped e (s'.withEnclosures saved)

/-- No expression starts behind the token at hand, whatever it is. -/
def expectOperator : Parser Unit := fun _ s => .read () s.expectingOperator

/-- Reads the token at hand again as the start of a regular expression, unless the one behind it has
been read. -/
def rereadRegex : Parser Unit := fun c s =>
  match s.current, s.ahead with
  | some slash, none =>
    let step := s.reader.readRegex c.toMode slash
    .read () { (s.take.after c step) with current := step.found }
  | _, _ => .read () s.take

/-! ## Functions -/

/-- The context of the parameters of a function. -/
def forParameters (isAsync isGenerator : Bool) (p : Parser α) : Parser α :=
  within (fun c =>
    { c with
      inParameters := true, inFunction := false, isAsync := isAsync, isGenerator := isGenerator }) p

/-- The context of the body of a function. -/
def forBody (isAsync isGenerator isArrow : Bool) (p : Parser α) : Parser α :=
  within (fun c =>
    { c with
      isAsync := isAsync, isGenerator := isGenerator, ownThis := c.ownThis || !isArrow,
      inFunction := true, breaks := false, continues := false, labels := [] }) p

end Parser

/-- The parsers that constructs nest in one another by, one level of nesting further down. -/
structure Grammar where
  type : Parser TypeExpr
  /-- An expression without commas. -/
  assign : Parser Expr
  /-- What a variable or parameter binds. -/
  pattern : Parser Pattern
  /-- A statement in a list of statements, which may be a declaration, or alone. -/
  statement : Bool → Parser Declaration
  item : Parser Item
  /-- An element in angle brackets, with its first `<` at hand. -/
  element : Parser Unit

/-- Expressions with commas between them. -/
def Grammar.expression (g : Grammar) : Parser Expr := do
  match ← Parser.separated "," g.assign with
  | [only] => pure only
  | items => pure (.sequence items)

end SchemaCompiler.TypeScript
