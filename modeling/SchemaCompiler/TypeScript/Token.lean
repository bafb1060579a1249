/-!
# Tokens

Words are identifiers and keywords alike; which of them may be a name depends on where they stand. A
word that starts with an escape is always a name.
-/

namespace SchemaCompiler.TypeScript

inductive Token where
  | word (text : String)
  /-- A word whose first character is an escape; it means nothing but itself. -/
  | name (text : String)
  | string (value : String)
  | number (value : Float)
  | bigint
  /-- The character that opens and closes a template. -/
  | backtick
  /-- A piece of a template as written; `sound` when all its escapes mean something. -/
  | piece (raw : String) (sound : Bool)
  | regex
  /-- The `<` of a tag, where an expression may start. -/
  | tagStart
  /-- The `>` of a tag. -/
  | tagEnd
  /-- A name in a tag, which may hold dashes. -/
  | tagName (text : String)
  /-- The text between tags. -/
  | tagText
  | punct (text : String)
  /-- Text that makes no token. -/
  | broken
  /-- The end of the text, and what is taken for it. -/
  | eof
deriving Repr, Inhabited

namespace Token

def keywords : List String :=
  ["await", "break", "case", "catch", "class", "const", "continue", "debugger", "default", "delete",
   "do", "else", "export", "extends", "false", "finally", "for", "function", "if", "import", "in",
   "instanceof", "let", "new", "null", "return", "super", "switch", "this", "throw", "true", "try",
   "typeof", "var", "void", "while", "with", "yield"]

def isKeyword (w : String) : Bool := keywords.contains w

/-- The keywords that stand for a value. -/
def constants : List String := ["false", "null", "true"]

/-- The words that are no keywords and still no names where a name is referred to. -/
def restricted : List String :=
  ["enum", "implements", "interface", "package", "private", "protected", "public"]

def isReserved (w : String) : Bool := isKeyword w || restricted.contains w

/-- Whether a block comment on the same line belongs to the token before it. -/
def keepsComment : Token → Bool
  | word text => !isKeyword text
  | name _ => true
  | string _ => true
  | number _ => true
  | bigint => true
  | regex => true
  | punct text => [";", "\x7b", "\x7d", "$\x7b"].contains text
  | _ => false

def isPunct (t : Token) (text : String) : Bool :=
  match t with
  | punct p => p == text
  | _ => false

def isAnyPunct (t : Token) (texts : List String) : Bool :=
  match t with
  | punct p => texts.contains p
  | _ => false

def isWord (t : Token) (text : String) : Bool :=
  match t with
  | word w => w == text
  | _ => false

def isAnyWord (t : Token) (texts : List String) : Bool :=
  match t with
  | word w => texts.contains w
  | _ => false

/-- Whether the token is a word, reserved or not. -/
def isName : Token → Bool
  | word _ => true
  | name _ => true
  | _ => false

/-- Whether the token is a word that a name may be referred to by. -/
def isReference : Token → Bool
  | word w => !isReserved w
  | name _ => true
  | _ => false

def isString : Token → Bool
  | string _ => true
  | _ => false

def isBacktick : Token → Bool
  | backtick => true
  | _ => false

def isTagStart : Token → Bool
  | tagStart => true
  | _ => false

def isTagEnd : Token → Bool
  | tagEnd => true
  | _ => false

def isTagName : Token → Bool
  | tagName _ => true
  | _ => false

def isEnd : Token → Bool
  | eof => true
  | _ => false

/-- The keywords that an expression can start with. -/
def expressionKeywords : List String :=
  ["await", "class", "delete", "false", "function", "import", "new", "null", "super", "this",
   "throw", "true", "typeof", "void", "yield"]

/-- Whether an expression can start with the token. -/
def startsExpression : Token → Bool
  | word w => !isKeyword w || expressionKeywords.contains w
  | name _ => true
  | string _ => true
  | number _ => true
  | bigint => true
  | backtick => true
  | regex => true
  | tagStart => true
  | tagText => true
  | punct p => ["!", "(", "[", "\x7b", "++", "--", "~", "+", "-", "<"].contains p
  | _ => false

/-! ## Expressions behind a token -/

/-- The keywords that an expression may follow. -/
def keywordsBeforeExpression : List String :=
  ["await", "case", "default", "delete", "do", "else", "extends", "in", "instanceof", "new",
   "return", "throw", "typeof", "void", "yield"]

/-- The marks behind which no expression starts. -/
def closingMarks : List String := ["++", "--", ")", "]", "\x7d", ".", "#", "@"]

/-- Whether an expression may start behind the token, as far as the token alone tells. -/
def precedesExpression : Token → Bool
  | word w => keywordsBeforeExpression.contains w
  | punct p => !closingMarks.contains p
  | tagText => true
  | _ => false

end Token

/-!
## What a token stands in

How a text is cut into tokens hangs on what is open around it: inside a template and between tags
stands text, and `<` opens a tag only where an expression may start. Both are followed from token to
token, without knowing the grammar.

* `Surroundings.behind` says how a token changes what is open and what may follow;
* `Surroundings.opensBlock` tells whether a brace holds statements.
-/

/-- Something that is open where a token stands. -/
inductive Enclosure where
  /-- Statements in braces, or a whole text. -/
  | block
  /-- Braces of an expression. -/
  | braces
  /-- Braces with an expression in a template or between tags. -/
  | substitution
  /-- Parentheses of a statement, which may be a loop with `for`. -/
  | condition (ofLoop : Bool)
  | parens
  | template
  /-- A function or class that is an expression, up to its body. -/
  | definition
  | openingTag
  | closingTag
  /-- What stands between tags. -/
  | element
deriving DecidableEq, Repr

namespace Enclosure

/-- Whether what closes it ends an expression. -/
def endsExpression : Enclosure → Bool
  | block => false
  | condition _ => false
  | openingTag => false
  | closingTag => false
  | _ => true

end Enclosure

/-- What is open at a place, and what came before it. -/
structure Surroundings where
  /-- The innermost enclosure first. -/
  enclosures : List Enclosure := [.block]
  /-- Whether an expression may start. -/
  expectsValue : Bool := true
  /-- The token before. -/
  previous : Option Token := none
  /-- Whether a line ended before the token before. -/
  lineBreak : Bool := false

namespace Surroundings

/-- What is open innermost. -/
def inside (s : Surroundings) : Option Enclosure := s.enclosures.head?

/-- Whether blanks and comments stand for nothing. -/
def skipsBlanks (s : Surroundings) : Bool :=
  s.inside != some .template && s.inside != some .element

/-- Whether a template or the text between tags is at hand that a piece has been read of. -/
def isBehindPiece (s : Surroundings) : Bool := s.previous matches some (.piece _ _)

def isBehind (s : Surroundings) (text : String) : Bool := s.previous.any (·.isPunct text)

def isBehindAny (s : Surroundings) (texts : List String) : Bool :=
  s.previous.any (·.isAnyPunct texts)

def isBehindWord (s : Surroundings) (texts : List String) : Bool :=
  s.previous.any (·.isAnyWord texts)

/-- The tokens that can end an expression, closing parentheses aside: behind one of them and a line
break, a statement starts. -/
def endsOperand : Token → Bool
  | .word w => !Token.isKeyword w || Token.constants.contains w
  | .punct p => p != "." && p != ")" && Token.closingMarks.contains p
  | .backtick => true
  | .name _ => true
  | .string _ => true
  | .number _ => true
  | .bigint => true
  | .regex => true
  | .broken => true
  | _ => false

/-- Whether a brace holds statements that is no value behind a colon. -/
def opensBlockElsewhere (s : Surroundings) (lineBreak : Bool) : Bool :=
  if s.isBehindWord ["return", "yield"] then lineBreak
  else if s.previous.isNone || s.isBehindWord ["else"] || s.isBehindAny [";", ")"] then true
  else if s.isBehind "\x7b" then
    match s.enclosures with
    | .braces :: .openingTag :: _ => true
    | around => around.head? == some .block
  else if s.isBehindAny ["<", ">", "=>"] then true
  else (lineBreak && s.previous.any endsOperand) || !s.expectsValue

/-- Whether a brace holds statements, and a function or class is one. -/
def opensBlock (s : Surroundings) (lineBreak : Bool) : Bool :=
  match s.isBehind ":", s.inside with
  | true, some .block => true
  | true, some .braces => false
  | _, _ => s.opensBlockElsewhere lineBreak

/-- What is open, and whether an expression may start. -/
abbrev Opening := List Enclosure × Bool

/-- Behind a closing brace or parenthesis. The whole text is never closed. -/
def close : List Enclosure → Opening
  | [] => ([], true)
  | [whole] => ([whole], true)
  | .block :: .definition :: around => (around, false)
  | .substitution :: around => (around, around.head? != some .template)
  | closed :: around => (around, !closed.endsExpression)

/-- Behind an opening brace. -/
def openBrace (s : Surroundings) (tags lineBreak : Bool) : Opening :=
  let opened : Enclosure :=
    if tags && s.inside == some .openingTag then .braces
    else if tags && s.inside == some .element then .substitution
    else if s.opensBlock lineBreak then .block
    else .braces
  (opened :: s.enclosures, true)

/-- Behind an opening parenthesis. -/
def openParen (s : Surroundings) : Opening :=
  let opened : Enclosure :=
    if s.isBehindWord ["if", "with", "while"] then .condition false
    else if s.isBehindWord ["for"] then .condition true
    else .parens
  (opened :: s.enclosures, true)

/-- Behind the end of a tag, which may close an element. -/
def closeTag (s : Surroundings) : Opening :=
  match s.enclosures with
  | [] => ([], true)
  | closed :: around =>
    if closed == .closingTag || (closed == .openingTag && s.isBehind "/") then
      (around.drop 1, (around.drop 1).head? == some .element)
    else (around, true)

/-- Behind a word. -/
def pastWord (s : Surroundings) (lineBreak : Bool) (w : String) : Opening :=
  if Token.isKeyword w && !Token.constants.contains w then
    if s.isBehind "." then (s.enclosures, false)
    else if w == "function" || w == "class" then
      if s.expectsValue && !s.opensBlock lineBreak then (.definition :: s.enclosures, false)
      else (s.enclosures, false)
    else (s.enclosures, (Token.word w).precedesExpression)
  else if w == "of" && s.inside == some (.condition true) then
    (s.enclosures, !s.previous.any (·.precedesExpression))
  else pastName s
where
  /-- A variable on a line of its own behind its keyword may be read as a statement. -/
  pastName (s : Surroundings) : Opening :=
    (s.enclosures, !Token.constants.contains w && s.isBehindWord ["let", "const", "var"] && s.lineBreak)

/-- Behind a mark that is no bracket. -/
def pastMark (s : Surroundings) (tags : Bool) (p : String) : Opening :=
  if p == ":" && s.inside == some .definition then (s.enclosures.drop 1, true)
  else if p == "/" && tags && s.previous matches some .tagStart then
    (.closingTag :: s.enclosures.drop 2, false)
  else if p == "++" || p == "--" then (s.enclosures, s.expectsValue)
  else (s.enclosures, (Token.punct p).precedesExpression)

/-- What is open behind a token, and whether an expression may start there; `tags` where tags are
read at all. -/
def opening (s : Surroundings) (tags lineBreak : Bool) (token : Token) : Opening :=
  match token with
  | .word w => s.pastWord lineBreak w
  | .name _ => (s.enclosures, s.isBehindWord ["let", "const", "var"] && s.lineBreak)
  | .punct p =>
    match p with
    | ")" => close s.enclosures
    | "\x7d" => close s.enclosures
    | "\x7b" => s.openBrace tags lineBreak
    | "(" => s.openParen
    | "$\x7b" => (.substitution :: s.enclosures, true)
    | _ => s.pastMark tags p
  | .backtick =>
    if s.inside == some .template then (s.enclosures.drop 1, false)
    else (.template :: s.enclosures, false)
  | .tagStart => (.openingTag :: .element :: s.enclosures, false)
  | .tagEnd => s.closeTag
  | _ => (s.enclosures, token.precedesExpression)

/-- The surroundings of what follows a token. -/
def behind (s : Surroundings) (tags lineBreak : Bool) (token : Token) : Surroundings :=
  let (enclosures, expectsValue) := s.opening tags lineBreak token
  ⟨enclosures, expectsValue, some token, lineBreak⟩

end Surroundings

end SchemaCompiler.TypeScript
