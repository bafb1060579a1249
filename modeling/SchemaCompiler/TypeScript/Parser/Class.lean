import SchemaCompiler.TypeScript.Parser.Chain
import SchemaCompiler.TypeScript.Parser.Function

/-!
# Classes

A class is read for where it ends and for the faults that its members have together.
-/

namespace SchemaCompiler.TypeScript.Parser

/-!
## What a class or interface builds on

A list of names behind `extends` or `implements`. It may be empty and may end with a comma.
-/

variable (g : Grammar)

/-- Whether a chain names something that can be built on. -/
def isHeritageName : Expr → Bool
  | .name _ => true
  | .member _ _ => true
  | .index _ => true
  | .instantiation _ => true
  | _ => false

/-- The plain name that a chain consists of, type arguments aside. -/
def heritageName? : Expr → Option String
  | .name text => some text
  | .instantiation (.name text) => some text
  | _ => none

def heritage : Parser Heritage := do
  let lo ← place
  let head ← anyWord
  let e ← chained g .names (.name head)
  report !(isHeritageName e)
  if ← pure !(e matches .instantiation _) <&&> isPunct "<" then
    let _ ← typeArguments g
  pure ⟨← spanFrom lo, heritageName? e⟩

def endsHeritage (t : Token) : Bool := t.isPunct "\x7b" || t.isAnyWord ["implements", "extends"]

def heritageList : Parser (List Heritage) := commaUntil endsHeritage (heritage g)

/-! ## Words in front of a member -/

/-- Words that modify a member of a class. -/
structure MemberWords where
  declared : Bool := false
  /-- One of `public`, `protected` and `private`. -/
  accessible : Bool := false
  isStatic : Bool := false
  /-- The other modifiers, in order. -/
  others : List String := []
  /-- The word `accessor`, which makes a property of two methods. -/
  isAccessor : Bool := false

namespace MemberWords

def isAbstract (m : MemberWords) : Bool := m.others.contains "abstract"

def overrides (m : MemberWords) : Bool := m.others.contains "override"

def isReadonly (m : MemberWords) : Bool := m.others.contains "readonly"

/-- Whether a word is at fault behind the words that stand before it. -/
def isFaulty (declared hasParent : Bool) (before : List String) (w : String) : Bool :=
  match w with
  | "abstract" => before.contains "abstract" || before.contains "override"
  | "override" => before.contains "override" || before.contains "readonly" || declared || !hasParent
  | "readonly" => before.contains "readonly"
  | _ => before.contains "override"

def anyFaulty (declared hasParent : Bool) : List String → List String → Bool
  | _, [] => false
  | before, w :: rest =>
    isFaulty declared hasParent before w || anyFaulty declared hasParent (w :: before) rest

end MemberWords

/-- A member may be named by a word that modifies others. -/
inductive WordUse where
  | method
  | property
  | modifier

def atMethod : Parser Bool := sees fun t => t.isAnyPunct ["(", "<"] || t.isTagStart

/-- Whether a property ends behind its name, or goes on with a type or a value; `bare` counts the
end of a line too. -/
def atPropertyEnd (bare : Bool) : Parser Bool := do
  isAnyPunct ["!", ":", "=", "\x7d", ";"] <||> (pure bare <&&> atStatementEnd)

/-- What the word just passed is. -/
def wordUse (bare : Bool) : Parser WordUse := do
  if ← atMethod then pure .method
  else if ← atPropertyEnd bare <||> isPunct "?" then pure .property
  else pure .modifier

/-! ## Names of members -/

structure ClassKey where
  /-- The name when it is a word. -/
  word : Option String := none
  isConstructor : Bool := false
  isPrivate : Bool := false

namespace ClassKey

def ofWord (w : String) : ClassKey := { word := some w, isConstructor := w == "constructor" }

def isAccessorWord (k : ClassKey) : Bool := k.word == some "get" || k.word == some "set"

end ClassKey

def classKey : Parser ClassKey := do
  if ← isPunct "#" then
    let name ← privateName
    report (name == "constructor")
    pure { isPrivate := true }
  else
    let head ← inKey token
    let _ ← propertyKey g
    match head with
    | .word w => pure (.ofWord w)
    | .name w => pure (.ofWord w)
    | .string s => pure { isConstructor := s == "constructor" }
    | _ => pure {}

/-! ## Members -/

/-- What a class has to know of a member. -/
inductive ClassMember where
  | constructor (hasBody : Bool)
  | abstract
  | other
deriving DecidableEq

def memberOf (words : MemberWords) (key : ClassKey) : ClassMember :=
  if words.isAbstract && !key.isPrivate && !words.isAccessor then .abstract else .other

/-- A method behind its name. -/
def method (words : MemberWords) (key : ClassKey) (tail : Parser FunctionTail) :
    Parser ClassMember := do
  let found ← tail
  report (key.isPrivate && words.accessible)
  report (!key.isPrivate && words.isAbstract && found.hasBody)
  pure (memberOf words key)

/-- A property behind its name. -/
def property (words : MemberWords) (key : ClassKey) (optional : Bool) : Parser ClassMember := do
  if key.isConstructor then fail "a method"
  let marked := (words.accessible && !words.isAccessor) || words.declared || words.isAbstract
  report (key.isPrivate && marked)
  if !optional then
    let _ ← eatPunct "!"
  let _ ← optionalAnnotation g
  within (fun c => { c with allowsIn := true, inField := true }) do
    let initialized ← eatPunct "="
    if initialized then
      let _ ← g.assign
    report !(← eatSemicolon)
    report (initialized && words.isAbstract && !key.isPrivate && !words.isAccessor)
  pure (memberOf words key)

/-- A member named by a word that could have been a modifier. -/
def memberNamed (words : MemberWords) (w : String) : WordUse → Parser (Option ClassMember)
  | .method => do
    let found ← method words (.ofWord w) (methodTail g false false)
    pure (some found)
  | .property => do
    let optional ← eatPunct "?"
    let found ← property g words (.ofWord w) optional
    pure (some found)
  | .modifier => pure none

/-- A parameter of a constructor. One with modifiers becomes a property, so it binds one name; the
flag tells whether it has any. -/
def constructorParameter : Parser (Parameter × Bool) := do
  settle
  if ← eatPunct "..." then
    let _ ← g.pattern
    let _ ← optionalAnnotation g
    pure ({ isRest := true }, false)
  else
    let access ← modifier ["public", "protected", "private", "in", "out"]
    report (access == some "in" || access == some "out")
    let overriding ← modifier ["override"]
    let fixed ← modifier ["readonly"]
    let isProperty := access.isSome || overriding.isSome || fixed.isSome
    let p ← singleParameter g
    if isProperty && !p.isName then fail "a name"
    pure (p, isProperty)

def constructorMember (words : MemberWords) : Parser ClassMember := do
  report (words.overrides || words.isStatic || words.isAbstract)
  if ← isPunct "<" then
    typeParameters g .ofFunction
    report true
  expectPunct "("
  let (found, trailing) ← listUpToNoting ")" (constructorParameter g)
  report (restIsNotLast (found.map (·.1)) trailing)
  if ← isPunct ":" then
    let _ ← typeAnnotation g
    report true
  let hasBody ← functionBody g (found.all fun p => p.2 || p.1.isSimple) false false
  report (!hasBody && found.any fun p => p.2 || p.1.hasDefault)
  pure (.constructor hasBody)

/-- A member behind its modifiers and its name. -/
def memberBehind (words : MemberWords) (key : ClassKey) : Parser ClassMember := do
  let optional ← eatPunct "?"
  if ← atMethod then
    report words.declared
    if words.isReadonly then fail "a property"
    if key.isConstructor then return ← constructorMember g words
    return ← method words key (methodTail g false false)
  let starredBelow ← lineBreak <&&> isPunct "*"
  let accesses := key.isAccessorWord && !(← atPropertyEnd false) && !starredBelow
  if ← pure !accesses <&&> atPropertyEnd true then
    return ← property g words key optional
  if ← pure (key.word == some "async") <&&> sameLine then
    report (← modifier ["override"]).isSome
    let starred ← eatPunct "*"
    let inner ← classKey g
    if inner.isConstructor then fail "another name"
    if words.isReadonly then fail "a property"
    let _ ← eatPunct "?"
    return ← method words inner (methodTail g true starred)
  if accesses then
    let inner ← classKey g
    report (words.isReadonly || inner.isConstructor)
    return ← method words inner (accessorTail g (key.word == some "get"))
  fail "a member"

def staticBlock (words : MemberWords) : Parser ClassMember := do
  report (words.declared || words.accessible)
  within (fun c => { c with inField := true }) (block g)
  pure .other

def atStaticBlock : Parser Bool := isWord "static" <&&> follows (·.isPunct "\x7b")

/-- The modifiers that may stand in any order. -/
def looseModifier : Parser (Option String) := do
  if ← atStaticBlock then pure none else modifier ["abstract", "readonly", "override", "static"]

/-- The name of a member, which may be the word `readonly` that has been passed. -/
def keyBehind (words : MemberWords) : Parser ClassKey := do
  if ← pure words.isReadonly <&&> isAnyPunct ["!", ":"] then pure (.ofWord "readonly")
  else classKey g

/-- A member behind all words that modify it. -/
def memberFrom (lo : Nat) (words : MemberWords) : Parser ClassMember := do
  if ← pure words.isStatic <&&> isPunct "\x7b" then
    return ← staticBlock g words
  if ← atStaticBlock then
    report (!words.others.isEmpty || words.isStatic)
    advance
    return ← staticBlock g words
  if ← pure (!words.isAbstract && !words.overrides && !words.accessible) <&&> atIndexSignature then
    let _ ← indexSignature g lo
    return .other
  if ← eatPunct "*" then
    let key ← classKey g
    report (words.isReadonly || key.isConstructor)
    return ← method words key (methodTail g false true)
  let key ← keyBehind g words
  memberBehind g words key

/-- The words that may stand in any order, and `accessor` behind them, unless it came before. -/
def looseWords (words : MemberWords) : Parser MemberWords := do
  let others ← repeated looseModifier
  report (MemberWords.anyFaulty words.declared (← context).hasParent [] others)
  let words :=
    { words with others := others, isStatic := words.isStatic || others.contains "static" }
  let accesses ← pure (!words.isAccessor && !words.isReadonly) <&&> eatWord "accessor"
  pure { words with isAccessor := words.isAccessor || accesses }

/-- A word that may stand in front of a member. -/
structure LeadingWord where
  text : String
  /-- What it says of the member. -/
  apply : MemberWords → MemberWords
  /-- Whether a member that it names may end with its line. -/
  bare : Bool

namespace LeadingWord

def declare : LeadingWord := ⟨"declare", fun m => { m with declared := true }, true⟩

def static : LeadingWord := ⟨"static", fun m => { m with isStatic := true }, false⟩

def accessor : LeadingWord := ⟨"accessor", fun m => { m with isAccessor := true }, true⟩

end LeadingWord

def accessWord (words : MemberWords) : Parser MemberWords := do
  let word ← modifier ["public", "protected", "private", "in", "out"]
  let misplaced := word == some "in" || word == some "out"
  report misplaced
  pure { words with accessible := word.isSome && !misplaced }

/-- A member behind the words that may lead it, in their order, unless one of them names it. -/
def memberLedBy (lo : Nat) : List LeadingWord → MemberWords → Parser ClassMember
  | [], words => do
    let words ← looseWords words
    memberFrom g lo words
  | w :: rest, words => do
    if ← eatWord w.text then
      match ← memberNamed g words w.text (← wordUse w.bare) with
      | some found => pure found
      | none => memberLedBy lo rest (w.apply words)
    else memberLedBy lo rest words

/-- A member behind words for access, with those that may follow them. -/
def memberWithAccess (lo : Nat) (words : MemberWords) : Parser ClassMember := do
  let words ← accessWord words
  let rest := [LeadingWord.static, .accessor]
  memberLedBy g lo (if words.declared then rest else .declare :: rest) words

def classMember : Parser ClassMember := do
  let lo ← place
  if ← eatWord "declare" then
    match ← memberNamed g {} "declare" (← wordUse true) with
    | some found => pure found
    | none => memberWithAccess g lo { declared := true }
  else memberWithAccess g lo {}

/-- A member, or nothing for a semicolon. -/
def classElement : Parser ClassMember := do
  if ← eatPunct ";" then pure .other
  else classMember g

/-! ## Whole classes -/

/-- The class that another one extends, with its arguments. -/
def superclass (leftHand : Parser Expr) : Parser Unit := do
  let e ← leftHand
  if ← pure !(e matches .instantiation _) <&&> isPunct "<" then
    let _ ← typeArguments g

/-- The class that is extended, and others behind a comma, which are at fault. -/
def superclasses (leftHand : Parser Expr) : Parser Unit := do
  superclass g leftHand
  if ← eatPunct "," then
    let others ← heritageList g
    report !others.isEmpty

/-- The names of built-in types, which no class or interface may have. -/
def isBuiltInTypeName (name : String) : Bool := (keyword? name).isSome && name != "undefined"

/-- What a class builds on, and whether that is another class. A clause that is repeated or out of
order is a fault. -/
def classHeritage (leftHand : Parser Expr) : Parser Bool := do
  let extending ← eatWord "extends"
  if extending then superclasses g leftHand
  if ← eatWord "extends" then
    report true
    superclass g leftHand
  if ← eatWord "implements" then
    let _ ← heritageList g
  if ← eatWord "implements" then
    report true
    let _ ← heritageList g
  if ← eatWord "extends" then
    report true
    superclass g leftHand
    pure true
  else pure extending

/-- A class from its word `class` on. -/
def classFrom (leftHand : Parser Expr) (isAbstract nameNeeded : Bool) : Parser Unit :=
  within (fun c => { c with inClass := true }) do
    settle
    expectWord "class"
    let name ← optionalName nameNeeded boundNameButLet
    report (name.any isBuiltInTypeName)
    let _ ← optionalTypeParameters g .ofClass
    let extending ← classHeritage g leftHand
    expectPunct "\x7b"
    let found ← within (fun c => { c with hasParent := extending })
      (untilToken (closes "\x7d") (classElement g))
    if ← sees (·.isEnd) then report true else expectPunct "\x7d"
    report (!(← context).ambient && found.count (.constructor true) > 1)
    report (!isAbstract && found.contains .abstract)

end SchemaCompiler.TypeScript.Parser
