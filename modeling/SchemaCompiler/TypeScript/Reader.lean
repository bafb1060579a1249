import SchemaCompiler.DocComment
import SchemaCompiler.TypeScript.Lexer
import SchemaCompiler.TypeScript.Source

/-!
# Reading on

A text is read token by token, and each token only when somebody looks at it, because what it is
hangs on what is expected there. `Reader.read` gives the next token and the reader behind it.

The character NUL is taken for the end of the text, but only by the one look that meets it.
-/

namespace SchemaCompiler.TypeScript

/-!
## Comments and what they document

A comment between two tokens belongs to the token behind it, unless it stands on the line of a token
that keeps it (`Token.keepsComment`) or right before a semicolon; then it trails the token before
it. A line break, also one inside an earlier comment, ends the line.

The documentation of a token is the last documentation block that belongs to it, or else a trailing
block with nothing but spaces and tabs between it and the token.
-/

/-- A documentation block: the text between `/*` and `*/` and the place behind it. -/
structure DocBlock where
  text : String
  stop : Nat

/-- The documentation blocks of a module, those found last in front. -/
structure Comments where
  /-- Blocks by the place of the token that they belong to. -/
  leading : List (Nat × DocBlock) := []
  trailing : List DocBlock := []

namespace Comments

def betweenIsBlank (source : SourceText) (lo hi : Nat) : Bool :=
  (source.slice ⟨lo, hi⟩).all fun c => c == ' ' || c == '\t'

/-- Of two trailing blocks the one that ends later. -/
def later (best : Option DocBlock) (block : DocBlock) : Option DocBlock :=
  match best with
  | some b => if b.stop < block.stop then some block else some b
  | none => some block

def blockAt? (c : Comments) (source : SourceText) (place : Nat) : Option DocBlock :=
  match c.leading.find? (·.1 == place) with
  | some (_, block) => some block
  | none =>
    (c.trailing.filter fun block =>
      block.stop ≤ place && betweenIsBlank source block.stop place).foldl later none

/-- The documentation of the token at a place. -/
def docAt (c : Comments) (source : SourceText) (place : Nat) : Doc :=
  match c.blockAt? source place with
  | some block => Doc.parse block.text
  | none => Doc.empty

/-- Gives blocks, last first, to the token at a place. -/
def addLeading (c : Comments) (place : Nat) (blocks : List DocBlock) : Comments :=
  { c with leading := blocks.map ((place, ·)) ++ c.leading }

def addTrailing (c : Comments) (blocks : List DocBlock) : Comments :=
  { c with trailing := blocks ++ c.trailing }

/-- The first documentation that says something. -/
def docAtAny (c : Comments) (source : SourceText) (places : List Nat) : Doc :=
  ((places.map (c.docAt source)).find? (!·.isEmpty)).getD Doc.empty

end Comments

/-! ### Blanks and comments between tokens -/

/-- What was passed over on the way to the next token. -/
structure Gap where
  rest : List Char
  offset : Nat
  lineBreak : Bool
  /-- Documentation blocks, last first; the flag tells those that trail the token before. -/
  blocks : List (Bool × DocBlock) := []
  /-- A comment is never closed, or a line stands in between that is a fault. -/
  faulty : Bool := false
  /-- As `faulty`, for what is reported in any case. -/
  grave : Bool := false

namespace Gap

/-- The rest of a block comment: its characters in reverse, what follows, and its length. -/
def blockEnd : List Char → List Char → Nat → Option (List Char × List Char × Nat)
  | [], _, _ => none
  | '*' :: '/' :: more, done, length => some (done, more, length + 2)
  | c :: more, done, length => blockEnd more (c :: done) (length + 1)

def isBlank (c : Char) : Bool := Lexer.isSpace c || Lexer.isLineEnd c

/-- Adds a block comment whose characters are given in reverse. -/
def addBlock (keeps : Bool) (gap : Gap) (text : List Char) (rest : List Char) (length : Nat) : Gap :=
  let stop := gap.offset + length
  let trails := (keeps && !gap.lineBreak) || (rest.dropWhile isBlank).head? == some ';'
  let blocks :=
    if text.getLast? == some '*' then
      (trails, ⟨String.ofList text.reverse, stop⟩) :: gap.blocks
    else gap.blocks
  { gap with
    rest := rest, offset := stop, blocks := blocks
    lineBreak := gap.lineBreak || text.any Lexer.isLineEnd }

/-- Passes over so many characters. -/
def drop (gap : Gap) (count : Nat) : Gap :=
  { gap with rest := gap.rest.drop count, offset := gap.offset + count }

/-- Passes over what is left of a line. -/
def dropLine (gap : Gap) : Gap := gap.drop (gap.rest.takeWhile (!Lexer.isLineEnd ·)).length

/-- Passes over blanks and comments; `keeps` tells whether the token before keeps comments on its
line. A comment that is never closed takes the rest of the text. Each round takes a character. -/
def skip (keeps : Bool) : Nat → Gap → Gap
  | 0, gap => gap
  | fuel + 1, gap =>
    match gap.rest with
    | [] => gap
    | '/' :: '/' :: _ => skip keeps fuel gap.dropLine
    | '/' :: '*' :: more =>
      match blockEnd more [] 2 with
      | none => { gap.drop gap.rest.length with faulty := true }
      | some (text, rest, length) => skip keeps fuel (gap.addBlock keeps text rest length)
    | c :: more =>
      if Lexer.isLineEnd c then
        skip keeps fuel { gap with rest := more, offset := gap.offset + 1, lineBreak := true }
      else if Lexer.isSpace c then skip keeps fuel { gap with rest := more, offset := gap.offset + 1 }
      else gap

/-- Passes over lines that are faults, with the blanks and comments behind them. -/
def skipStrayLines (m : Mode) (keeps : Bool) (rounds : Nat) : Nat → Gap → Gap
  | 0, gap => gap
  | fuel + 1, gap =>
    match Lexer.strayLine? m gap.lineBreak gap.rest with
    | none => gap
    | some line =>
      let behind := skip keeps rounds gap.dropLine
      skipStrayLines m keeps rounds fuel
        { behind with
          faulty := behind.faulty || !line.grave, grave := behind.grave || line.grave }

end Gap

/-- A token in its place. -/
structure PlacedToken where
  token : Token
  start : Nat
  stop : Nat
  /-- A line ended in front of it. -/
  lineBreak : Bool
  /-- The text from the token on. -/
  text : List Char

structure Reader where
  /-- The text that has not been read. -/
  rest : List Char
  offset : Nat
  around : Surroundings := {}
  /-- Nothing has been read so far. -/
  isFirst : Bool := true
  /-- Documentation blocks in front of the next token, last first. -/
  waiting : List DocBlock := []
  comments : Comments := {}

/-- A step of a reader. Nothing is `found` at the end of the text. -/
structure Reading where
  found : Option PlacedToken
  reader : Reader
  faulty : Bool
  /-- There is a fault that is reported in any case. -/
  grave : Bool

namespace Reader

def keepsComment (r : Reader) : Bool := r.around.previous.any (·.keepsComment)

/-- The blanks and comments in front of the next token, if blanks stand for nothing here. -/
def gap (r : Reader) : Gap :=
  let start : Gap := ⟨r.rest, r.offset, r.isFirst, [], false, false⟩
  if r.around.skipsBlanks then Gap.skip r.keepsComment (r.rest.length + 1) start else start

/-- The reader behind a gap, where no token has been found. -/
def passing (r : Reader) (gap : Gap) : Reader :=
  { r with
    rest := gap.rest, offset := gap.offset, isFirst := false
    waiting := (gap.blocks.filter (!·.1)).map (·.2) ++ r.waiting
    comments := r.comments.addTrailing ((gap.blocks.filter (·.1)).map (·.2)) }

/-- The step to a lexeme behind a gap. It counts from `start` on, where the gap ended before lines
that are faults. -/
def finding (r : Reader) (m : Mode) (start : Nat) (gap : Gap) (lexeme : Lexeme) : Reading :=
  let passed := r.passing gap
  let behind := gap.drop lexeme.length
  let lineBreak := gap.lineBreak || spansLines lexeme
  let reader : Reader :=
    { passed with
      rest := behind.rest, offset := behind.offset
      around := r.around.behind m.jsx lineBreak lexeme.token
      waiting := []
      comments := passed.comments.addLeading start passed.waiting }
  ⟨some ⟨lexeme.token, start, behind.offset, lineBreak, gap.rest⟩, reader,
    gap.faulty || lexeme.faulty, gap.grave⟩
where
  /-- Whether a piece of a template goes over the end of a line. -/
  spansLines (lexeme : Lexeme) : Bool :=
    (lexeme.token matches .piece _ _) && (gap.rest.take lexeme.length).any Lexer.isLineEnd

/-- Passes over the rest of a line that makes no token. -/
def breaking (r : Reader) (m : Mode) (start : Nat) (gap : Gap) : Reading :=
  let behind := Gap.skip r.keepsComment (gap.rest.length + 1) gap.dropLine
  r.finding m start { behind with faulty := true } (.broken 0)

/-- A token outside templates and tags. -/
def readPlain (r : Reader) (m : Mode) (first : Gap) : Reading :=
  let rounds := first.rest.length + 1
  let gap := Gap.skipStrayLines m r.keepsComment rounds rounds first
  match gap.rest with
  | [] => ⟨none, r.passing gap, gap.faulty, gap.grave⟩
  | c :: _ =>
    if c.toNat = 0 then ⟨none, r.passing (gap.drop 1), gap.faulty, gap.grave⟩
    else if Lexer.breaksLine gap.lineBreak gap.rest then r.breaking m first.offset gap
    else r.finding m first.offset gap (Lexer.token m gap.rest)

/-- The next token, as the mode wants it read. -/
def read (r : Reader) (m : Mode) : Reading :=
  let gap := r.gap
  if gap.rest.isEmpty then ⟨none, r.passing gap, gap.faulty, gap.grave⟩
  else
    match if m.hasTags then Lexer.tagToken? r.around gap.rest else none with
    | some lexeme => r.finding m gap.offset gap lexeme
    | none =>
      if r.around.inside == some .template then
        r.finding m gap.offset gap (Lexer.piece r.around.isBehindPiece gap.rest)
      else r.readPlain m gap

/-- Reads a token again as the start of a regular expression. -/
def readRegex (r : Reader) (m : Mode) (slash : PlacedToken) : Reading :=
  let gap : Gap := ⟨slash.text, slash.start, slash.lineBreak, [], false, false⟩
  r.finding m slash.start gap (Lexer.regex slash.text)

/-- Length of a first line that names an interpreter. -/
def interpreterLine : List Char → Nat
  | '#' :: '!' :: more => 2 + (more.takeWhile (!Lexer.isLineEnd ·)).length
  | _ => 0

/-- At the start of a text, behind the name of an interpreter; no expression follows this name on
its line. -/
def ofText (chars : List Char) : Reader :=
  let skipped := interpreterLine chars
  let around : Surroundings :=
    if skipped = 0 then {} else { expectsValue := false, previous := some .broken }
  { rest := chars.drop skipped, offset := skipped, around := around }

end Reader

end SchemaCompiler.TypeScript
